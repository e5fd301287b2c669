import Schemata.Json.Written

/-!
Records: documents with a fixed row of keys.

A record is an object that gives none of its keys twice, or an array that gives the values in the order of
the keys and may stop early. Keys that the record does not have are ignored, whatever is under them.
-/
namespace Schemata

abbrev Record := List (String × Written)

namespace Record

def onceEach (keys : List String) (members : List (String × Written)) : Bool :=
  keys.all fun key => (members.filter (·.1 = key)).length ≤ 1

def of? (keys : List String) : Written → Option Record
  | .object members => if onceEach keys members then some (members.filter (·.1 ∈ keys)) else none
  | .array items => if items.length ≤ keys.length then some (keys.zip items) else none
  | _ => none

def required (r : Record) (key : String) (read : Written → Option α) : Option α :=
  (r.lookup key).bind read

/-- A part that may be absent or `null`. -/
def optional (r : Record) (key : String) (read : Written → Option α) : Option (Option α) :=
  match r.lookup key with
  | none | some .null => some none
  | some w => (read w).map some

/-- A part that has a default when it is absent, but not when it is `null`. -/
def defaulted (r : Record) (key : String) (default : α) (read : Written → Option α) : Option α :=
  match r.lookup key with
  | none => some default
  | some w => read w

end Record

end Schemata
