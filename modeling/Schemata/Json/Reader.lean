import Schemata.Json.Written
import Schemata.Text.Digits
import Schemata.Text.Hexadecimal

/-!
Reading a document from its text. The grammar is strict: no comments, no comma before a closing bracket,
no raw control in a string, and nothing but blanks around the one value. A string whose surrogate escapes
do not pair, a number beyond binary64, and what nests deeper than `nestingLimit` are faulty.
-/
namespace Schemata

namespace Json

def nestingLimit : Nat := 127

def isBlank (c : Char) : Bool := c = ' ' || c = '\t' || c = '\n' || c = '\r'

def skipBlank (cs : List Char) : List Char := cs.dropWhile isBlank

def unescape? : Char → Option Char
  | '"' => some '"'
  | '\\' => some '\\'
  | '/' => some '/'
  | 'b' => some '\x08'
  | 'f' => some '\x0c'
  | 'n' => some '\n'
  | 'r' => some '\r'
  | 't' => some '\t'
  | _ => none

def unit? (a b c d : Char) : Option Nat := do
  let a ← Text.hexValue? a
  let b ← Text.hexValue? b
  let c ← Text.hexValue? c
  let d ← Text.hexValue? d
  return ((a * 16 + b) * 16 + c) * 16 + d

def isLeading (u : Nat) : Bool := 0xD800 ≤ u && u < 0xDC00

def isTrailing (u : Nat) : Bool := 0xDC00 ≤ u && u < 0xE000

def ofPair (leading trailing : Nat) : Char :=
  Char.ofNat (0x10000 + (leading - 0xD800) * 0x400 + (trailing - 0xDC00))

/-- What is between the quotes of a string, escapes as they are, and what follows it; `seen` holds what came
before, last one first. -/
def readQuoted (seen : List Char) : List Char → Option (List Char × List Char)
  | '"' :: rest => some (seen.reverse, rest)
  | '\\' :: 'u' :: a :: b :: c :: d :: rest =>
    match unit? a b c d with
    | none => none
    | some _ => readQuoted (d :: c :: b :: a :: 'u' :: '\\' :: seen) rest
  | '\\' :: c :: rest =>
    match unescape? c with
    | none => none
    | some _ => readQuoted (c :: '\\' :: seen) rest
  | c :: rest => if c.toNat < 0x20 then none else readQuoted (c :: seen) rest
  | [] => none

/-- The characters that the inside of a string stands for, unless its surrogate escapes do not pair. -/
def unquote? (seen : List Char) : List Char → Option (List Char)
  | '\\' :: 'u' :: a :: b :: c :: d :: rest =>
    match unit? a b c d with
    | none => none
    | some u =>
      if isTrailing u then none
      else if isLeading u then
        match rest with
        | '\\' :: 'u' :: a :: b :: c :: d :: rest =>
          match unit? a b c d with
          | none => none
          | some w => if isTrailing w then unquote? (ofPair u w :: seen) rest else none
        | _ => none
      else unquote? (Char.ofNat u :: seen) rest
  | '\\' :: c :: rest =>
    match unescape? c with
    | none => none
    | some x => unquote? (x :: seen) rest
  | c :: rest => unquote? (c :: seen) rest
  | [] => some seen.reverse

def readString (cs : List Char) : Option (Option String × List Char) :=
  (readQuoted [] cs).map fun found => ((unquote? [] found.1).map String.ofList, found.2)

/-- Appends digits to a significand as long as it stays below `2 ^ 64`; says how many were appended. -/
def appendDigits : Nat → List Char → Nat × Nat
  | significand, [] => (significand, 0)
  | significand, c :: rest =>
    let next := 10 * significand + Text.digitValue c
    if next < 18446744073709551616 then
      let more := appendDigits next rest
      (more.1, more.2 + 1)
    else (significand, 0)

/-- The number written with the given digits before the point, after it, and exponent. Digits beyond the
significand only count as places. -/
def ofDigits? (negative : Bool) (whole fraction : List Char) (exponent : Int) : Option Number :=
  let upper := appendDigits 0 whole
  let lower := appendDigits upper.1 fraction
  let places : Int := (whole.length - upper.2 : Nat) - (lower.2 : Nat)
  (Double.ofDecimal? negative lower.1 (places + exponent)).map .double

/-- The number of an integer literal: whole if a 64-bit word holds it. Zero with a sign is not whole. -/
def ofInteger? (negative : Bool) (digits : List Char) : Option Number :=
  let n := Text.value digits
  if negative then
    if h : 0 < n ∧ n ≤ 9223372036854775808 then some (.whole ⟨-n, by omega⟩)
    else ofDigits? true digits [] 0
  else if h : n < 18446744073709551616 then some (.whole ⟨n, by omega⟩)
  else ofDigits? false digits [] 0

def readFraction? : List Char → Option (Option (List Char) × List Char)
  | '.' :: rest =>
    match rest.span Text.isDigit with
    | ([], _) => none
    | (ds, rest) => some (some ds, rest)
  | rest => some (none, rest)

def readExponentDigits? (negative : Bool) (cs : List Char) : Option (Option Int × List Char) :=
  match cs.span Text.isDigit with
  | ([], _) => none
  | (ds, rest) =>
    let n : Int := (Text.value ds : Nat)
    some (some (if negative then -n else n), rest)

def readExponent? (cs : List Char) : Option (Option Int × List Char) :=
  let signed (rest : List Char) : Option (Option Int × List Char) :=
    match rest with
    | '+' :: rest => readExponentDigits? false rest
    | '-' :: rest => readExponentDigits? true rest
    | rest => readExponentDigits? false rest
  match cs with
  | 'e' :: rest => signed rest
  | 'E' :: rest => signed rest
  | rest => some (none, rest)

def readMagnitude (negative : Bool) (cs : List Char) : Option (Option Number × List Char) := do
  let (whole, rest) := cs.span Text.isDigit
  guard (whole = ['0'] || (!whole.isEmpty && whole.head? ≠ some '0'))
  let (fraction, rest) ← readFraction? rest
  let (exponent, rest) ← readExponent? rest
  let n := match fraction, exponent with
    | none, none => ofInteger? negative whole
    | _, _ => ofDigits? negative whole (fraction.getD []) (exponent.getD 0)
  return (n, rest)

/-- A number: no plus sign, no leading zero, and digits on both sides of a point. -/
def readNumber : List Char → Option (Option Number × List Char)
  | '-' :: rest => readMagnitude true rest
  | cs => readMagnitude false cs

def readItems (item : List Char → Option (Written × List Char)) :
    (bound : Nat) → (seen : List Written) → List Char → Option (List Written × List Char)
  | 0, _, _ => none
  | bound + 1, seen, cs =>
    match item cs with
    | none => none
    | some (w, rest) =>
      match skipBlank rest with
      | ']' :: rest => some ((w :: seen).reverse, rest)
      | ',' :: rest => readItems item bound (w :: seen) rest
      | _ => none

def readMember (item : List Char → Option (Written × List Char)) (cs : List Char) :
    Option ((Option String × Written) × List Char) :=
  match skipBlank cs with
  | '"' :: rest =>
    match readString rest with
    | none => none
    | some (key, rest) =>
      match skipBlank rest with
      | ':' :: rest => (item rest).map fun found => ((key, found.1), found.2)
      | _ => none
  | _ => none

def readMembers (item : List Char → Option (Written × List Char)) :
    (bound : Nat) → (seen : List (Option String × Written)) → List Char →
      Option (List (Option String × Written) × List Char)
  | 0, _, _ => none
  | bound + 1, seen, cs =>
    match readMember item cs with
    | none => none
    | some (m, rest) =>
      match skipBlank rest with
      | '}' :: rest => some ((m :: seen).reverse, rest)
      | ',' :: rest => readMembers item bound (m :: seen) rest
      | _ => none

/-- The object of some members; it is faulty if one of its keys is. -/
def objectOf (members : List (Option String × Written)) : Written :=
  match members.mapM fun (key, w) => key.map fun key => (key, w) with
  | some members => .object members
  | none => .faulty

/-- One value, after blanks; arrays and objects in it nest at most `depth` deep. Repeated keys are kept. -/
def readValue : (depth : Nat) → List Char → Option (Written × List Char)
  | depth, cs =>
    match skipBlank cs with
    | 'n' :: 'u' :: 'l' :: 'l' :: rest => some (.null, rest)
    | 't' :: 'r' :: 'u' :: 'e' :: rest => some (.bool true, rest)
    | 'f' :: 'a' :: 'l' :: 's' :: 'e' :: rest => some (.bool false, rest)
    | '"' :: rest =>
      (readString rest).map fun found => ((found.1.map Written.string).getD .faulty, found.2)
    | '[' :: rest =>
      match depth with
      | 0 => none
      | depth + 1 =>
        match skipBlank rest with
        | ']' :: rest => some (.array [], rest)
        | rest => (readItems (readValue depth) rest.length [] rest).map fun found =>
            (.array found.1, found.2)
    | '{' :: rest =>
      match depth with
      | 0 => none
      | depth + 1 =>
        match skipBlank rest with
        | '}' :: rest => some (.object [], rest)
        | rest => (readMembers (readValue depth) rest.length [] rest).map fun found =>
            (objectOf found.1, found.2)
    | cs => (readNumber cs).map fun found => ((found.1.map Written.number).getD .faulty, found.2)

end Json

/-- The document that a whole text writes. A text cannot nest deeper than it is long. -/
def Written.ofText? (s : String) : Option Written :=
  match Json.readValue s.length s.toList with
  | some (w, rest) =>
    if (Json.skipBlank rest).isEmpty then some (w.within Json.nestingLimit) else none
  | none => none

def Json.ofText? (s : String) : Option Json := (Written.ofText? s).bind Written.value?

end Schemata
