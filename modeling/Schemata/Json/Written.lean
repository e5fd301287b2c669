import Schemata.Json.Basic

/-!
Documents as they are written. A text may follow the grammar although a part of it has no value: a number
beyond binary64, half of a surrogate pair, or arrays and objects that nest too deep. Such a part is faulty.
It spoils only what it is needed for, so a reader that passes over a member does not mind what is in it.

What a reader makes of a document is said by functions out of `Written`. A value is the special case in
which nothing is faulty (`ofJson`).
-/
namespace Schemata

inductive Written where
  | faulty
  | null
  | bool (b : Bool)
  | number (n : Number)
  | string (s : String)
  | array (items : List Written)
  | object (members : List (String × Written))
deriving Repr

namespace Written

mutual
def ofJson : Json → Written
  | .null => null
  | .bool b => bool b
  | .number n => number n
  | .string s => string s
  | .array items => array (ofItems items)
  | .object members => object (ofMembers members)

def ofItems : List Json → List Written
  | [] => []
  | v :: rest => ofJson v :: ofItems rest

def ofMembers : List (String × Json) → List (String × Written)
  | [] => []
  | (key, v) :: rest => (key, ofJson v) :: ofMembers rest
end

mutual
/-- The value, if no part of it is faulty. Of members with one key the first place and the last value
count. -/
def value? : Written → Option Json
  | faulty => none
  | null => some .null
  | bool b => some (.bool b)
  | number n => some (.number n)
  | string s => some (.string s)
  | array items => (values? items).map .array
  | object members => (memberValues? members).map fun members => .object (Json.distinct members)

def values? : List Written → Option (List Json)
  | [] => some []
  | w :: rest =>
    match value? w, values? rest with
    | some v, some more => some (v :: more)
    | _, _ => none

def memberValues? : List (String × Written) → Option (List (String × Json))
  | [] => some []
  | (key, w) :: rest =>
    match value? w, memberValues? rest with
    | some v, some more => some ((key, v) :: more)
    | _, _ => none
end

mutual
/-- What is left if arrays and objects may nest only `limit` deep: those beyond are faulty. -/
def within : (limit : Nat) → Written → Written
  | 0, array _ => faulty
  | limit + 1, array items => array (itemsWithin limit items)
  | 0, object _ => faulty
  | limit + 1, object members => object (membersWithin limit members)
  | _, w => w

def itemsWithin (limit : Nat) : List Written → List Written
  | [] => []
  | w :: rest => within limit w :: itemsWithin limit rest

def membersWithin (limit : Nat) : List (String × Written) → List (String × Written)
  | [] => []
  | (key, w) :: rest => (key, within limit w) :: membersWithin limit rest
end

mutual
/-- How deep arrays and objects nest. -/
def nesting : Written → Nat
  | array items => nestingItems items + 1
  | object members => nestingMembers members + 1
  | _ => 0

def nestingItems : List Written → Nat
  | [] => 0
  | w :: rest => max (nesting w) (nestingItems rest)

def nestingMembers : List (String × Written) → Nat
  | [] => 0
  | (_, w) :: rest => max (nesting w) (nestingMembers rest)
end

def string? : Written → Option String
  | string s => some s
  | _ => none

def bool? : Written → Option Bool
  | bool b => some b
  | _ => none

/-- A whole number of an unsigned 64-bit word. -/
def word? : Written → Option UInt64
  | number n => (Json.number n).word?
  | _ => none

/-- An array whose items are all read by `item`. -/
def list? (item : Written → Option α) : Written → Option (List α)
  | array items => items.mapM item
  | _ => none

/-- An object whose members are all read by `item`. -/
def entries? (item : Written → Option α) : Written → Option (List (String × α))
  | object members => members.mapM fun (key, w) => (item w).map fun a => (key, a)
  | _ => none

/-- A name out of a fixed list: the name itself, or an object with that key alone and `null` under it. -/
def name? : Written → Option String
  | string s => some s
  | object [(key, null)] => some key
  | _ => none

end Written

end Schemata
