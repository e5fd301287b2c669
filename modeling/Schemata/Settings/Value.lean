import Schemata.Json.Basic
import Schemata.Number.Extended
import Schemata.Table

/-!
Setting values: what a settings file or an environment variable says, before it is known what is wanted of
it.
-/
namespace Schemata

inductive Setting where
  | nothing
  | boolean (b : Bool)
  | integer (n : Int)
  | real (x : Extended)
  | text (s : String)
  | list (items : List Setting)
  | table (entries : Table String Setting)

namespace Setting

def empty : Setting := table Table.empty

/-- The value of a key, if this is a table. -/
def get? (key : String) : Setting → Option Setting
  | table entries => entries.get? key
  | _ => none

/-- Sets the value of a key. What is not a table becomes one. -/
def put (under : Setting) (key : String) (value : Setting) : Setting :=
  match under with
  | table entries => table (entries.insert key value)
  | _ => table (Table.empty.insert key value)

def entries : Setting → List (String × Setting)
  | table t => t.entries
  | _ => []

/-- A number of a document. What does not fit a signed 64-bit word counts as binary64. -/
def ofNumber : Number → Setting
  | .whole n =>
    if n.value < 9223372036854775808 then integer n.value else real (Extended.nearest false n.value.toNat 1)
  | .double d => real (.finite d)

mutual
def ofJson : Json → Setting
  | .null => nothing
  | .bool b => boolean b
  | .number n => ofNumber n
  | .string s => text s
  | .array items => list (ofItems items)
  | .object members => table (.ofList (ofMembers members))

def ofItems : List Json → List Setting
  | [] => []
  | v :: rest => ofJson v :: ofItems rest

def ofMembers : List (String × Json) → List (String × Setting)
  | [] => []
  | (key, v) :: rest => (key, ofJson v) :: ofMembers rest
end

/-- A text, or a number or truth value as a text. -/
def toText? : Setting → Option String
  | text s => some s
  | boolean b => some (if b then "true" else "false")
  | integer n =>
    some (String.ofList (if n < 0 then '-' :: Text.decimal n.natAbs else Text.decimal n.natAbs))
  | real x => some x.text
  | _ => none

def wordOfText? (s : String) : Option UInt64 :=
  let word := String.ofList (s.toList.map Char.toLower)
  if word = "true" ∨ word = "on" ∨ word = "yes" then some 1
  else if word = "false" ∨ word = "off" ∨ word = "no" then some 0
  else (Text.index? 18446744073709551616 s.toList).map .ofNat

/-- A number that an unsigned 64-bit word holds. Truth values count as one and zero. -/
def toWord? : Setting → Option UInt64
  | text s => wordOfText? s
  | boolean b => some (if b then 1 else 0)
  | integer n => if 0 ≤ n then some (.ofNat n.toNat) else none
  | real x => some x.toWord
  | _ => none

def toTexts? : Setting → Option (List String)
  | list items => items.mapM toText?
  | _ => none

end Setting

end Schemata
