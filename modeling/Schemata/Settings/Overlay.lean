import Schemata.Settings.Value

/-!
Laying the values of several sources over each other: tables are merged key by key, and any other value takes
the place of what was there. Keys come to lie in lower case, so the case of a key does not count.

The keys at the top of a source are names, which can lead deeper: `a.b` to a key of a table, and `a[0]` to an
item of a list.
-/
namespace Schemata.Setting

/-- The key in lower case. Only ASCII letters have a case here, as the keys of the settings have no others. -/
def folded (key : String) : String := String.ofList (key.toList.map Char.toLower)

mutual
def overlay : Setting → (under : Option Setting) → Setting
  | table ⟨entries⟩, under => overlayEntries entries (under.getD empty)
  | value, _ => value

def overlayEntries : List (String × Setting) → (under : Setting) → Setting
  | [], under => under
  | (key, value) :: rest, under =>
    overlayEntries rest (under.put (folded key) (overlay value (under.get? (folded key))))
end

inductive Step where
  | key (name : String)
  | item (index : Int)
deriving DecidableEq, Repr

/-- The items of a list, with room for one of the given index, and its place. A negative index counts from
the end. What is missing at the end or at the start is filled with nothing. What is not a list has no
items. -/
def roomFor (index : Int) (under : Setting) : List Setting × Nat :=
  let items := match under with
    | list items => items
    | _ => []
  let place := index + (if index < 0 then items.length else 0)
  if place < 0 then (List.replicate place.natAbs nothing ++ items, 0)
  else (items ++ List.replicate (place.toNat + 1 - items.length) nothing, place.toNat)

/-- Lays a value over what stands at the end of a row of steps. An item of a list is replaced. -/
def overlayAt (value : Setting) : List Step → (under : Setting) → Setting
  | [], under => overlay value (some under)
  | [.key name], under => under.put (folded name) (overlay value (under.get? (folded name)))
  | [.item index], under =>
    let (items, place) := roomFor index under
    list (items.set place value)
  | .key name :: rest, under =>
    under.put (folded name) (overlayAt value rest ((under.get? (folded name)).getD nothing))
  | .item index :: rest, under =>
    let (items, place) := roomFor index under
    list (items.modify place (overlayAt value rest))

def isKeyChar (c : Char) : Bool := c.isAlphanum || c = ' ' || c = '_' || c = '-'

def isPadding (c : Char) : Bool := c = ' ' || c = '\t'

def itemIndex? (cs : List Char) : Option (Int × List Char) :=
  let (negative, cs) := match cs.dropWhile isPadding with
    | '-' :: rest => (true, rest)
    | rest => (false, rest)
  match cs.span Text.isDigit with
  | ([], _) => none
  | (ds, rest) =>
    match rest.dropWhile isPadding with
    | ']' :: rest =>
      let n : Int := if negative then -(Text.value ds : Int) else Text.value ds
      if -9223372036854775808 ≤ n ∧ n < 9223372036854775808 then some (n, rest) else none
    | _ => none

def furtherSteps? : (bound : Nat) → List Char → Option (List Step)
  | _, [] => some []
  | 0, _ => none
  | bound + 1, '.' :: rest =>
    match rest.span isKeyChar with
    | ([], _) => none
    | (key, rest) => (furtherSteps? bound rest).map (.key (String.ofList key) :: ·)
  | bound + 1, '[' :: rest =>
    (itemIndex? rest).bind fun (index, rest) => (furtherSteps? bound rest).map (.item index :: ·)
  | _, _ => none

/-- The steps that a name stands for, such as `a.b[0]`. A name that is not of this form, with keys of
letters, digits, blanks, `_` and `-`, is one key. -/
def stepsOf (name : String) : List Step :=
  let steps := match name.toList.span isKeyChar with
    | ([], _) => none
    | (key, rest) => (furtherSteps? rest.length rest).map (Step.key (String.ofList key) :: ·)
  steps.getD [.key name]

def overlaySource (entries : List (String × Setting)) (under : Setting) : Setting :=
  entries.foldl (fun under entry => overlayAt entry.2 (stepsOf entry.1) under) under

end Schemata.Setting
