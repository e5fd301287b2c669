import Schemata.Settings.Value
import Schemata.Text.Hexadecimal

/-!
The values of YAML: scalars by the kind that their text or tag says, lists, and mappings.

A scalar that does not fit its tag is `unfit`. It is nothing as a value, and as a key it is passed over: the
next value takes its place.
-/
namespace Schemata.Yaml

inductive Leaf where
  | nothing
  | unfit
  | boolean (b : Bool)
  | integer (n : Int)
  /-- A number of binary64, by its text. -/
  | real (text : String)
  | text (s : String)
deriving DecidableEq, Repr

inductive Node where
  | leaf (l : Leaf)
  | list (items : List Node)
  | mapping (entries : List (Leaf × Node))

namespace Leaf

/-- Digits of a base after at most one sign, if a signed 64-bit word holds the number. -/
def whole? (base : Nat) (cs : List Char) : Option Int := do
  let (negative, ds) := match cs with
    | '-' :: rest => (true, rest)
    | '+' :: rest => (false, rest)
    | rest => (false, rest)
  guard !ds.isEmpty
  let n ← ds.foldlM (fun n c => do
    let d ← Text.hexValue? c
    guard (d < base)
    return base * n + d) 0
  let n : Int := if negative then -(n : Int) else n
  guard (-9223372036854775808 ≤ n && n < 9223372036854775808)
  return n

/-- Whether a text is a number of binary64: one of the special words, or a numeral with a digit. -/
def isReal (s : String) : Bool :=
  s ∈ [".inf", ".Inf", ".INF", "+.inf", "+.Inf", "+.INF", "-.inf", "-.Inf", "-.INF", ".nan", "NaN",
    ".NAN"] ||
  (s.toList.any Text.isDigit && (Extended.ofText? s).isSome)

/-- A whole number with a mark for its base, or after a plus sign. -/
def marked? (s : String) : Option Int :=
  match s.toList with
  | '0' :: 'x' :: ds => whole? 16 ds
  | '0' :: 'o' :: ds => whole? 8 ds
  | '+' :: ds => whole? 10 ds
  | _ => none

def ofPlain (s : String) : Leaf :=
  match marked? s, whole? 10 s.toList with
  | some n, _ => integer n
  | none, some n => integer n
  | none, none =>
    if s = "~" ∨ s = "null" then nothing
    else if s = "true" then boolean true
    else if s = "false" then boolean false
    else if isReal s then real s
    else text s

def ofTag (suffix s : String) : Leaf :=
  if suffix = "bool" then
    if s = "true" then boolean true else if s = "false" then boolean false else unfit
  else if suffix = "int" then ((whole? 10 s.toList).map integer).getD unfit
  else if suffix = "float" then if isReal s then real s else unfit
  else if suffix = "null" then if s = "~" ∨ s = "null" then nothing else unfit
  else text s

def integerText (n : Int) : String :=
  String.ofList (if n < 0 then '-' :: Text.decimal n.natAbs else Text.decimal n.natAbs)

def key? : Leaf → Option String
  | text s => some s
  | integer n => some (integerText n)
  | boolean b => some (if b then "true" else "false")
  | real s => some s
  | nothing | unfit => none

/-- The value of a scalar. Of the special numbers only those that a numeral names have one. -/
def toSetting? : Leaf → Option Setting
  | nothing | unfit => some .nothing
  | boolean b => some (.boolean b)
  | integer n => some (.integer n)
  | real s => (Extended.ofText? s).map .real
  | text s => some (.text s)

end Leaf

namespace Node

def nothing : Node := leaf .nothing

/-- The entries that a row of keys and values makes, after the entries and the key that wait for more. A key
is a scalar and is there once. -/
def entriesOf? (entries : List (Leaf × Node)) (waiting : Option Leaf) :
    List Node → Option (List (Leaf × Node))
  | [] => some entries.reverse
  | node :: rest =>
    match waiting with
    | some key =>
      if entries.any fun entry => entry.1 = key then none
      else entriesOf? ((key, node) :: entries) none rest
    | none =>
      match node with
      | leaf .unfit => entriesOf? entries none rest
      | leaf l => if l.key?.isSome then entriesOf? entries (some l) rest else none
      | _ => none

def mapping? (row : List Node) : Option Node := (entriesOf? [] none row).map .mapping

mutual
def toSetting? : Node → Option Setting
  | leaf l => l.toSetting?
  | list items => (settings? items).map .list
  | mapping entries => (entrySettings? entries).map fun entries => .table (.ofList entries)

def settings? : List Node → Option (List Setting)
  | [] => some []
  | node :: rest =>
    match toSetting? node, settings? rest with
    | some v, some more => some (v :: more)
    | _, _ => none

def entrySettings? : List (Leaf × Node) → Option (List (String × Setting))
  | [] => some []
  | (key, node) :: rest =>
    match key.key?, toSetting? node, entrySettings? rest with
    | some key, some v, some more => some ((key, v) :: more)
    | _, _, _ => none
end

end Node

end Schemata.Yaml
