import BulkAssessment.Keyed

/-!
# TOML tables

A document builds its tables piece by piece. A table is *implicit* while no header or
braces have defined it, and *dotted* if it came up as the front part of a dotted key.
The rules that keep a key from being defined twice are these:

* a dotted key goes only through tables that are implicit, and a value is put only
  into a dotted table, or into the table whose header or braces it stands under;
* a header goes through tables of any kind, and through the latest table of an array;
  the table that it names must be new, or implicit and not dotted;
* the header of an array needs an array that other such headers have made.
-/

namespace BulkAssessment.Toml

/-- A value. Of numbers, truth values and dates it is only known that they are that. -/
inductive Value where
  | string (s : String)
  | plain
  | date
  | array (items : List Value)
  | table (entries : List (String × Value))
  deriving Inhabited

/-- A table under construction, with entries of a given type. -/
structure TableOf (α : Type) where
  implicit : Bool
  dotted : Bool
  entries : List (String × α)

/-- An entry of a table under construction. -/
inductive Item where
  | value (v : Value)
  | table (t : TableOf Item)
  /-- An array of tables, the latest one first. -/
  | tables (latest : TableOf Item) (earlier : List (TableOf Item))

/-- A table under construction. -/
abbrev Table := TableOf Item

namespace Table

/-- A table that a header or braces define. -/
def defined : Table := ⟨false, false, []⟩

/-- A table that comes up on the way to another one. -/
def passed (dotted : Bool) : Table := ⟨true, dotted, []⟩

/-- Set an entry. -/
def put (t : Table) (key : String) (item : Item) : Table :=
  { t with entries := Keyed.alter key (fun _ => item) t.entries }

/-- Change the table at the end of a path. A dotted path leads through implicit tables
only. -/
def changeAt (dotted : Bool) : List String → (Table → Option Table) → Table → Option Table
  | [], change, t => change t
  | key :: path, change, t =>
    match Keyed.get? key t.entries with
    | none => (changeAt dotted path change (passed dotted)).map fun u => t.put key (.table u)
    | some (.value _) => none
    | some (.tables u earlier) =>
      (changeAt dotted path change u).map fun u => t.put key (.tables u earlier)
    | some (.table u) =>
      if dotted && !u.implicit then none
      else (changeAt dotted path change u).map fun u => t.put key (.table u)

/-- Put a value under a dotted key of which `path` is the front part. -/
def insert (path : List String) (key : String) (v : Value) : Table → Option Table :=
  changeAt true path fun t =>
    if t.dotted == path.isEmpty then none
    else if (Keyed.get? key t.entries).isSome then none
    else some (t.put key (.value v))

/-- Define the table that a header names. -/
def define (path : List String) (key : String) : Table → Option Table :=
  changeAt false path fun t =>
    match Keyed.get? key t.entries with
    | none => some (t.put key (.table defined))
    | some (.table u) =>
      if u.implicit && !u.dotted then some (t.put key (.table { u with implicit := false }))
      else none
    | some _ => none

/-- Append a table to the array that a header names. -/
def append (path : List String) (key : String) : Table → Option Table :=
  changeAt false path fun t =>
    match Keyed.get? key t.entries with
    | none => some (t.put key (.tables defined []))
    | some (.tables u earlier) => some (t.put key (.tables defined (u :: earlier)))
    | some _ => none

end Table

mutual

/-- The value of a finished entry. -/
def Item.toValue : Item → Value
  | .value v => v
  | .table t => .table (valuesOf t)
  | .tables latest earlier => .array (tableValues earlier ++ [.table (valuesOf latest)])

/-- The values of a finished table. -/
def valuesOf : TableOf Item → List (String × Value)
  | ⟨_, _, entries⟩ => entryValues entries

/-- The values of finished entries. -/
def entryValues : List (String × Item) → List (String × Value)
  | [] => []
  | (key, item) :: rest => (key, item.toValue) :: entryValues rest

/-- The values of tables given latest first, in their order. -/
def tableValues : List (TableOf Item) → List Value
  | [] => []
  | t :: earlier => tableValues earlier ++ [.table (valuesOf t)]

end

end BulkAssessment.Toml
