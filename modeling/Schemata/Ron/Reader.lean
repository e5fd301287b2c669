import Schemata.Ron.Text
import Schemata.Settings.Value

/-!
Reading a RON document: structures in parentheses with named or unnamed parts, lists in brackets, maps in
braces, optional values, texts, characters, numbers and truth values. The name of a structure does not count.

What holds no value (a unit, a name alone, an absent optional value) says nothing.
-/
namespace Schemata.Ron

inductive Digits where
  | value (n : Nat)
  | beyondLimit
  | malformed
deriving DecidableEq, Repr

/-- Digits of a base, with underscores between and after them. They are taken from the left up to the first
that leads beyond the limit or is none of the base. -/
def Digits.of (base limit n : Nat) : List Char → Digits
  | [] => value n
  | c :: rest =>
    if c = '_' then of base limit n rest
    else if limit < n * base then beyondLimit
    else
      match Text.hexValue? c with
      | none => malformed
      | some d =>
        if base ≤ d then malformed
        else if limit < n * base + d then beyondLimit
        else of base limit (n * base + d) rest

def isWholeChar (c : Char) : Bool := (Text.hexValue? c).isSome || c = '_'

def isRealChar (c : Char) : Bool :=
  Text.isDigit c || c = 'e' || c = 'E' || c = '.' || c = '+' || c = '-' || c = '_'

def real? : Text.Reader Setting := fun cs =>
  let (numeral, rest) := cs.span isRealChar
  if '_' ∈ numeral then none
  else (Extended.ofText? (String.ofList numeral)).map fun x => (.real x, rest)

/-- A whole number. One that only an unsigned 64-bit word holds counts as binary64, and one that none holds is
read as such a numeral. -/
def whole? (sign : Option Char) : Text.Reader Setting := fun cs =>
  let (base, ds) := match cs with
    | '0' :: 'x' :: rest => (16, rest)
    | '0' :: 'b' :: rest => (2, rest)
    | '0' :: 'o' :: rest => (8, rest)
    | cs => (10, cs)
  let limit := match sign with
    | none => 18446744073709551615
    | some '-' => 9223372036854775808
    | some _ => 9223372036854775807
  let (ds, rest) := ds.span isWholeChar
  if ds.isEmpty || ds.head? = some '_' then none
  else
    match Digits.of base limit 0 ds with
    | .malformed => none
    | .beyondLimit => real? (sign.toList ++ cs)
    | .value n =>
      if sign = some '-' then some (.integer (-n), rest)
      else if n < 9223372036854775808 then some (.integer n, rest)
      else some (.real (Extended.nearest false n 1), rest)

/-- A number is read as binary64 if more of its characters can stand in such a numeral than in a whole
number. -/
def number? : Text.Reader Setting := fun cs =>
  let (sign, rest) := match cs with
    | '+' :: rest => (some '+', rest)
    | '-' :: rest => (some '-', rest)
    | rest => (none, rest)
  if (rest.takeWhile isWholeChar).length < (rest.takeWhile isRealChar).length then real? cs
  else whole? sign rest

def comma? (cs : List Char) : Option (Bool × List Char) := do
  match ← skipBlank? cs with
  | ',' :: rest => return (true, ← skipBlank? rest)
  | rest => return (false, rest)

def items? (item : Text.Reader α) (closing : Char) : (bound : Nat) → (seen : List α) → Text.Reader (List α)
  | 0, _, _ => none
  | bound + 1, seen, cs =>
    match skipBlank? cs with
    | none => none
    | some cs =>
      if cs.head? = some closing then some (seen.reverse, cs.drop 1)
      else
        match item cs with
        | none => none
        | some (v, rest) =>
          match comma? rest with
          | none => none
          | some (true, rest) => items? item closing bound (v :: seen) rest
          | some (false, rest) =>
            if rest.head? = some closing then some ((v :: seen).reverse, rest.drop 1) else none

def member? (key : Text.Reader String) (value : Text.Reader Setting) :
    Text.Reader (String × Setting) := fun cs => do
  let (name, rest) ← key cs
  let ':' :: rest ← skipBlank? rest | none
  let (v, rest) ← value (← skipBlank? rest)
  return ((name, v), rest)

def mapKey? : Text.Reader String := fun cs =>
  match char? cs with
  | some (c, rest) => some (c.toString, rest)
  | none => text? cs

def isNamed? (cs : List Char) : Option Bool :=
  match name? cs with
  | none => some false
  | some (_, rest) =>
    match skipBlank? rest with
    | some (c :: _) => some (c = ':')
    | _ => none

def structure? (value : Text.Reader Setting) : Text.Reader Setting := fun cs => do
  let cs ← skipBlank? cs
  if ← isNamed? cs then
    let (members, rest) ← items? (member? name? value) ')' (cs.length + 1) [] cs
    return (.table (.ofList members), rest)
  else
    let (items, rest) ← items? value ')' (cs.length + 1) [] cs
    return (.list items, rest)

def optional? (value : Text.Reader Setting) : Text.Reader Setting := fun cs => do
  let '(' :: rest ← skipBlank? cs | none
  let (v, rest) ← value (← skipBlank? rest)
  let (_, rest) ← comma? rest
  let ')' :: rest := rest | none
  return (v, rest)

def word? (cs : List Char) : Option (Setting × List Char) :=
  [("true", Setting.boolean true), ("false", .boolean false), ("None", .nothing),
    ("inf", .real (.infinite false)), ("-inf", .real (.infinite true)),
    ("NaN", .real .undefined)].findSome? fun (word, v) =>
      (afterWord? word cs).map fun rest => (v, rest)

/-- A value, with readers for what is in an optional value and for the parts of all else. If it is `flat` it
has no room for either. -/
def valueOf? (flat : Bool) (inOptional part : Text.Reader Setting) : Text.Reader Setting := fun cs =>
  match word? cs, afterWord? "Some" cs with
  | some found, _ => some found
  | none, some rest => if flat then none else optional? inOptional rest
  | none, none =>
    match cs, (name? cs).bind fun found => skipBlank? found.2 with
    | '(' :: ')' :: rest, _ => some (.nothing, rest)
    | _, some ('(' :: rest) => if flat then none else structure? part rest
    | cs, afterName =>
      if (name? cs).isSome then afterName.map fun rest => (.nothing, rest)
      else
        match cs with
        | '(' :: rest => if flat then none else structure? part rest
        | '[' :: rest =>
          if flat then none
          else (items? part ']' (rest.length + 1) [] rest).map fun found => (.list found.1, found.2)
        | '\x7b' :: rest =>
          if flat then none
          else (items? (member? mapKey? part) '\x7d' (rest.length + 1) [] rest).map fun found =>
            (.table (.ofList found.1), found.2)
        | '\'' :: _ => (char? cs).map fun found => (.text found.1.toString, found.2)
        | '.' :: _ => real? cs
        | '"' :: _ => (text? cs).map fun found => (.text found.1, found.2)
        | 'r' :: _ => (text? cs).map fun found => (.text found.1, found.2)
        | cs => number? cs

/-- A value that has so much room for what it contains: an optional value takes one of it, and any other
value with parts two, one of them for the part. -/
def value? : (room : Nat) → Text.Reader Setting
  | 0 => valueOf? true (fun _ => none) fun _ => none
  | 1 => valueOf? false (value? 0) fun _ => none
  | room + 2 => valueOf? false (value? (room + 1)) (value? room)

def roomAtTop : Nat := 128

/-- The dialect features that a document may ask for. None of them changes how a value is read here. -/
def features : List String := ["unwrap_newtypes", "implicit_some", "unwrap_variant_newtypes"]

def afterMark? (mark : String) (cs : List Char) : Option (List Char) := do
  let cs ← skipBlank? cs
  if mark.toList.isPrefixOf cs then return cs.drop mark.length else none

def afterFeatures? : (bound : Nat) → List Char → Option (List Char)
  | 0, _ => none
  | bound + 1, cs => do
    let (name, rest) ← name? cs
    guard (name ∈ features)
    match ← comma? rest with
    | (true, rest) => if rest.head?.any isNameChar then afterFeatures? bound rest else return rest
    | (false, rest) => return rest

def afterAttributes? : (bound : Nat) → List Char → Option (List Char)
  | 0, _ => none
  | bound + 1, cs => do
    let cs ← skipBlank? cs
    match cs with
    | '#' :: rest =>
      let rest ← afterMark? "(" (← afterMark? "enable" (← afterMark? "[" (← afterMark? "!" rest)))
      let rest ← afterFeatures? (rest.length + 1) (← skipBlank? rest)
      afterAttributes? bound (← afterMark? "]" (← afterMark? ")" rest))
    | cs => return cs

/-- The entries of a document, which has to be a map or a structure with named parts. -/
def read? (s : String) : Option (List (String × Setting)) := do
  let (v, rest) ← value? roomAtTop (← afterAttributes? (s.length + 1) s.toList)
  let [] ← skipBlank? rest | none
  let .table entries := v | none
  return entries.entries

end Schemata.Ron
