import Schemata.Json.Reader
import Schemata.Settings.Value
import Schemata.Text.Letters
import Schemata.Text.Reader

/-!
Reading a JSON5 document: JSON with comments, commas before closing brackets, texts in single quotes, bare
keys, and numbers in more forms. A number without a point or an exponent is a whole number of a signed 64-bit
word.
-/
namespace Schemata.Json5

def isLineEnd (c : Char) : Bool := c = '\n' || c = '\r' || c = '\u2028' || c = '\u2029'

def isBlank (c : Char) : Bool :=
  c = '\t' || c = '\x0b' || c = '\x0c' || c = ' ' || c = '\xa0' || c = '\ufeff' || isLineEnd c ||
    c = '\u1680' || ('\u2000' ≤ c && c ≤ '\u200a') || c = '\u202f' || c = '\u205f' || c = '\u3000'

def afterComment? : List Char → Option (List Char)
  | '*' :: '/' :: rest => some rest
  | _ :: rest => afterComment? rest
  | [] => none

/-- Blanks and at most `bound` comments skipped; `none` if a comment is not closed. -/
def skipUpTo? : (bound : Nat) → List Char → Option (List Char)
  | 0, _ => none
  | bound + 1, cs =>
    match cs.dropWhile isBlank with
    | '/' :: '*' :: rest => (afterComment? rest).bind (skipUpTo? bound)
    | '/' :: '/' :: rest => skipUpTo? bound (rest.dropWhile fun c => !isLineEnd c)
    | rest => some rest

def skipBlank? (cs : List Char) : Option (List Char) := skipUpTo? (cs.length + 1) cs

def unescape? : Char → Option Char
  | 'b' => some '\x08'
  | 'f' => some '\x0c'
  | 'n' => some '\n'
  | 'r' => some '\r'
  | 't' => some '\t'
  | 'v' => some '\x0b'
  | c => if c.isDigit || c = 'x' || c = 'u' then none else some c

/-- A 16-bit unit as a character, unless it is half of a surrogate pair. -/
def ofUnit? (u : Nat) : Option Char :=
  if Json.isLeading u || Json.isTrailing u then none else some (Char.ofNat u)

/-- The rest of a text after its opening quote. A backslash takes a line end out of the text. -/
def textRest (quote : Char) (seen : List Char) : Text.Reader String
  | '\\' :: '\r' :: '\n' :: rest => textRest quote seen rest
  | '\\' :: 'x' :: a :: b :: rest =>
    match Json.unit? '0' '0' a b with
    | some u => textRest quote (Char.ofNat u :: seen) rest
    | none => none
  | '\\' :: 'u' :: a :: b :: c :: d :: rest =>
    match Json.unit? a b c d with
    | none => none
    | some u =>
      if Json.isLeading u then
        match rest with
        | '\\' :: 'u' :: a :: b :: c :: d :: rest =>
          match Json.unit? a b c d with
          | none => none
          | some w =>
            if Json.isTrailing w then textRest quote (Json.ofPair u w :: seen) rest else none
        | _ => none
      else
        match ofUnit? u with
        | some x => textRest quote (x :: seen) rest
        | none => none
  | '\\' :: c :: rest =>
    if isLineEnd c then textRest quote seen rest
    else if c = '0' && !(rest.head?.any Char.isDigit) then textRest quote ('\x00' :: seen) rest
    else
      match unescape? c with
      | some x => textRest quote (x :: seen) rest
      | none => none
  | c :: rest =>
    if c = quote then some (String.ofList seen.reverse, rest)
    else if c = '\\' || c = '\n' || c = '\r' then none
    else textRest quote (c :: seen) rest
  | [] => none

def bareRest (seen : List Char) : Text.Reader String
  | '\\' :: 'u' :: a :: b :: c :: d :: rest =>
    match (Json.unit? a b c d).bind ofUnit? with
    | some x => bareRest (x :: seen) rest
    | none => none
  | c :: rest =>
    if c = '$' || Text.isLetter c || c = '_' ||
        (!seen.isEmpty && (Text.isJoined c || c = '\u200c' || c = '\u200d')) then
      bareRest (c :: seen) rest
    else if seen.isEmpty then none
    else some (String.ofList seen.reverse, c :: rest)
  | [] => none

def whole (cs : List Char) : List Char × List Char :=
  match cs with
  | '0' :: rest => (['0'], rest)
  | cs => cs.span Text.isDigit

def exponent? (cs : List Char) : Option (Int × List Char) :=
  match Json.readExponent? cs with
  | some (some n, rest) => some (n, rest)
  | _ => none

/-- A decimal number, whole if it has neither point nor exponent. One above the range of binary64, or a whole
number that does not fit, is refused. -/
def decimal? (negative : Bool) : Text.Reader Setting := fun cs =>
  let (ds, rest) := whole cs
  let point := match rest with
    | '.' :: rest => some (rest.span Text.isDigit)
    | _ => none
  let (fraction, rest) := point.getD ([], rest)
  if ds.isEmpty && fraction.isEmpty then none
  else
    match point, exponent? rest with
    | none, none =>
      let n : Int := if negative then -(Text.value ds : Int) else Text.value ds
      if -9223372036854775808 ≤ n ∧ n < 9223372036854775808 then some (.integer n, rest) else none
    | _, e =>
      let (n, rest) := e.getD (0, rest)
      match Extended.ofScientific negative (Text.value (ds ++ fraction)) (n - fraction.length) with
      | .infinite _ => none
      | x => some (.real x, rest)

def hexadecimal? : Text.Reader Setting := fun cs =>
  match cs.span fun c => (Text.hexValue? c).isSome with
  | ([], _) => none
  | (ds, rest) =>
    let n := ds.foldl (fun n c => 16 * n + (Text.hexValue? c).getD 0) 0
    if n < 4294967296 then some (.integer n, rest) else none

/-- A number. Only a minus sign can stand before the two words, and no sign before a hexadecimal number. -/
def number? : Text.Reader Setting
  | '0' :: 'x' :: rest => hexadecimal? rest
  | '0' :: 'X' :: rest => hexadecimal? rest
  | 'I' :: 'n' :: 'f' :: 'i' :: 'n' :: 'i' :: 't' :: 'y' :: rest => some (.real (.infinite false), rest)
  | 'N' :: 'a' :: 'N' :: rest => some (.real .undefined, rest)
  | '-' :: 'I' :: 'n' :: 'f' :: 'i' :: 'n' :: 'i' :: 't' :: 'y' :: rest =>
    some (.real (.infinite true), rest)
  | '-' :: 'N' :: 'a' :: 'N' :: rest => some (.real .undefined, rest)
  | '-' :: rest => decimal? true rest
  | '+' :: rest => decimal? false rest
  | cs => decimal? false cs

def items? (item : Text.Reader Setting) : (bound : Nat) → (seen : List Setting) → Text.Reader (List Setting)
  | 0, _, _ => none
  | bound + 1, seen, cs =>
    match skipBlank? cs with
    | some (']' :: rest) => some (seen.reverse, rest)
    | some cs =>
      match item cs with
      | none => none
      | some (v, rest) =>
        match skipBlank? rest with
        | some (',' :: rest) => items? item bound (v :: seen) rest
        | some (']' :: rest) => some ((v :: seen).reverse, rest)
        | _ => none
    | none => none

def key? : Text.Reader String
  | '"' :: rest => textRest '"' [] rest
  | '\'' :: rest => textRest '\'' [] rest
  | cs => bareRest [] cs

def member? (item : Text.Reader Setting) : Text.Reader (String × Setting) := fun cs => do
  let (key, rest) ← key? cs
  let ':' :: rest ← skipBlank? rest | none
  let (v, rest) ← item (← skipBlank? rest)
  return ((key, v), rest)

def members? (item : Text.Reader Setting) :
    (bound : Nat) → (seen : List (String × Setting)) → Text.Reader (List (String × Setting))
  | 0, _, _ => none
  | bound + 1, seen, cs =>
    match skipBlank? cs with
    | some ('}' :: rest) => some (seen.reverse, rest)
    | some cs =>
      match member? item cs with
      | none => none
      | some (m, rest) =>
        match skipBlank? rest with
        | some (',' :: rest) => members? item bound (m :: seen) rest
        | some ('}' :: rest) => some ((m :: seen).reverse, rest)
        | _ => none
    | none => none

/-- A value; arrays and objects in it nest less than `depth` deep. Of members with one key the last counts. -/
def value? : (depth : Nat) → Text.Reader Setting
  | 0, _ => none
  | depth + 1, cs =>
    match cs with
    | 'n' :: 'u' :: 'l' :: 'l' :: rest => some (.nothing, rest)
    | 't' :: 'r' :: 'u' :: 'e' :: rest => some (.boolean true, rest)
    | 'f' :: 'a' :: 'l' :: 's' :: 'e' :: rest => some (.boolean false, rest)
    | '"' :: rest => (textRest '"' [] rest).map fun found => (.text found.1, found.2)
    | '\'' :: rest => (textRest '\'' [] rest).map fun found => (.text found.1, found.2)
    | '[' :: rest => (items? (value? depth) (rest.length + 1) [] rest).map fun found =>
        (.list found.1, found.2)
    | '{' :: rest => (members? (value? depth) (rest.length + 1) [] rest).map fun found =>
        (.table (.ofList found.1), found.2)
    | cs => number? cs

def read? (s : String) : Option (List (String × Setting)) := do
  let (v, rest) ← value? (s.length + 1) (← skipBlank? s.toList)
  let [] ← skipBlank? rest | none
  let .table entries := v | none
  return entries.entries

end Schemata.Json5
