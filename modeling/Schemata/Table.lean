import Schemata.Text.Order

/-!
Tables: one value for each key, held in ascending order of the keys.

A table is only its list of entries, so two tables with the same entries are equal, however they were
filled.
-/
namespace Schemata

structure Table (κ α : Type) where
  entries : List (κ × α)
deriving DecidableEq, Repr

namespace Table

def empty : Table κ α := ⟨[]⟩

variable [Key κ]

def find? (key : κ) : List (κ × α) → Option α
  | [] => none
  | (k, v) :: rest =>
    match Key.order key k with
    | .eq => some v
    | _ => find? key rest

/-- Puts an entry in its place, instead of one with the same key. -/
def put (key : κ) (value : α) : List (κ × α) → List (κ × α)
  | [] => [(key, value)]
  | (k, v) :: rest =>
    match Key.order key k with
    | .lt => (key, value) :: (k, v) :: rest
    | .eq => (key, value) :: rest
    | .gt => (k, v) :: put key value rest

def get? (t : Table κ α) (key : κ) : Option α := find? key t.entries

def contains (t : Table κ α) (key : κ) : Bool := (t.get? key).isSome

/-- Sets the value of a key. -/
def insert (t : Table κ α) (key : κ) (value : α) : Table κ α := ⟨put key value t.entries⟩

/-- The table of a list of entries; of two with one key the later counts. -/
def ofList (entries : List (κ × α)) : Table κ α :=
  entries.foldl (fun t entry => t.insert entry.1 entry.2) empty

omit [Key κ] in
def keys (t : Table κ α) : List κ := t.entries.map (·.1)

omit [Key κ] in
def values (t : Table κ α) : List α := t.entries.map (·.2)

omit [Key κ] in
def size (t : Table κ α) : Nat := t.entries.length

omit [Key κ] in
/-- The entry with the greatest key. -/
def last? (t : Table κ α) : Option (κ × α) := t.entries.getLast?

end Table

/-- A set of names, in ascending order. -/
abbrev Names := Table String Unit

namespace Names

def add (names : Names) (name : String) : Names := names.insert name ()

def addAll (names : Names) (more : List String) : Names := more.foldl add names

end Names

end Schemata
