import Schemata.Text.Hexadecimal
import Schemata.Yaml.Cursor

/-!
The tokens of YAML, and the reading of those that are one word: tags, anchors, aliases and directives.
-/
namespace Schemata.Yaml

inductive Token where
  | documentStart
  | documentEnd
  | versionLine
  /-- A line that gives a tag handle its meaning. Any other unknown directive counts as one with two empty
  texts. -/
  | tagLine (handle meaning : String)
  | blockListStart
  | blockMapStart
  | blockEnd
  | blockItem
  | flowListStart
  | flowListEnd
  | flowMapStart
  | flowMapEnd
  | flowItem
  | key
  | value
  | alias (name : String)
  | anchor (name : String)
  | tag (handle suffix : String)
  | scalar (isPlain : Bool) (text : String)
deriving DecidableEq, Repr

def isHandleChar (c : Char) : Bool := c.isAlphanum || c = '_' || c = '-'

def isUriChar (c : Char) : Bool :=
  c.isAlphanum || c = '-' ||
    c ∈ ['#', ';', '/', '?', ':', '@', '&', '=', '+', '$', ',', '_', '.', '!', '~', '*', '\'', '(', ')',
      '[', ']', '%']

def isTagChar (c : Char) : Bool := isUriChar c && !isFlowMark (some c) && c ≠ '!'

def codeWidth? (byte : Nat) : Option Nat :=
  if byte < 0x80 then some 1
  else if 0xc0 ≤ byte && byte < 0xe0 then some 2
  else if 0xe0 ≤ byte && byte < 0xf0 then some 3
  else if 0xf0 ≤ byte && byte < 0xf8 then some 4
  else none

/-- The next bytes of a code, each a percent sign and two digits. The bytes are put together as they are. -/
def codeBytes? : (width code : Nat) → List Char → Option Nat
  | 0, code, _ => some code
  | width + 1, code, '%' :: a :: b :: rest =>
    match Text.hexValue? a, Text.hexValue? b with
    | some a, some b =>
      if 8 ≤ a && a < 12 then codeBytes? width (code * 256 + (16 * a + b)) rest else none
    | _, _ => none
  | _ + 1, _, _ => none

def uriEscape? : List Char → Option (Char × Nat)
  | '%' :: a :: b :: rest => do
    let a ← Text.hexValue? a
    let b ← Text.hexValue? b
    let width ← codeWidth? (16 * a + b)
    let n ← codeBytes? (width - 1) (16 * a + b) rest
    return (← Text.ofCodePoint? n, 3 * width)
  | _ => none

/-- The characters of a tag up to the first that is not `ok`, at most `bound` of them, and how many there
are. -/
def uriText? (ok : Char → Bool) : (bound : Nat) → (seen : List Char) → Cursor → Option (List Char × Cursor)
  | 0, _, _ => none
  | bound + 1, seen, c =>
    match c.peek with
    | none => some (seen.reverse, c)
    | some x =>
      if !ok x then some (seen.reverse, c)
      else if x = '%' then
        match uriEscape? c.rest with
        | some (y, width) => uriText? ok bound (y :: seen) (c.take width)
        | none => none
      else uriText? ok bound (x :: seen) (c.take 1)

def word (ok : Char → Bool) (c : Cursor) : List Char × Cursor :=
  let cs := c.rest.takeWhile ok
  (cs, c.take cs.length)

/-- A handle: an exclamation mark, a name, and a second mark if there is one. -/
def handle? (c : Cursor) : Option (List Char × Cursor) :=
  if c.peek = some '!' then
    let (name, c) := word isHandleChar (c.take 1)
    if c.peek = some '!' then some ('!' :: name ++ ['!'], c.take 1) else some ('!' :: name, c)
  else none

def isClosedHandle (handle : List Char) : Bool := 2 ≤ handle.length && handle.getLast? = some '!'

/-- The handle and the suffix of a tag. A tag between `<` and `>` has no handle, and one mark alone is the
suffix. -/
def tagParts? (c : Cursor) : Option (List Char × List Char × Cursor) := do
  if c.ahead 1 = some '<' then
    let (suffix, c) ← uriText? isUriChar (c.rest.length + 1) [] (c.take 2)
    if c.peek = some '>' then return ([], suffix, c.take 1) else none
  else
    let (handle, c) ← handle? c
    let (suffix, c) ← uriText? isTagChar (c.rest.length + 1) [] c
    if isClosedHandle handle then
      if suffix.isEmpty then none else return (handle, suffix, c)
    else
      match handle.drop 1 ++ suffix with
      | [] => return ([], ['!'], c)
      | suffix => return (['!'], suffix, c)

/-- A tag, up to a blank or the end of the line, or inside of brackets one of their marks. -/
def tag? (flow : Bool) (c : Cursor) : Option (Token × Cursor) := do
  let (handle, suffix, c) ← tagParts? c
  if endsWord c.peek || (flow && isFlowMark c.peek) then
    return (.tag (String.ofList handle) (String.ofList suffix), c)
  else none

def isAnchorChar (c : Char) : Bool := !endsWord (some c) && !isFlowMark (some c) && c ≠ '\ufeff'

def anchorName? (c : Cursor) : Option (String × Cursor) :=
  match word isAnchorChar (c.take 1) with
  | ([], _) => none
  | (name, c) => some (String.ofList name, c)

def versionNumber? (c : Cursor) : Option Cursor :=
  let (ds, c) := word Text.isDigit c
  if ds.isEmpty || 9 < ds.length then none else some c

def skipBlanks (c : Cursor) : Cursor := c.skip (c.rest.takeWhile fun x => isBlank (some x)).length

def tagLine? (c : Cursor) : Option (Token × Cursor) := do
  let (handle, c) ← handle? (skipBlanks c)
  if handle ≠ ['!'] && !isClosedHandle handle then none
  else
    let c := skipBlanks c
    let first ← c.peek
    if first ≠ '!' && !isTagChar first then none
    else
      let (meaning, c) ← uriText? isUriChar (c.rest.length + 1) [] c
      if endsWord c.peek then return (.tagLine (String.ofList handle) (String.ofList meaning), c) else none

def directive? (c : Cursor) : Option (Token × Cursor) := do
  let (name, c) := word isHandleChar (c.take 1)
  if name.isEmpty || !endsWord c.peek then none
  else
    let (token, c) ←
      if name = "YAML".toList then do
        let c ← versionNumber? (skipBlanks c)
        if c.peek = some '.' then
          let c ← versionNumber? (c.take 1)
          some (Token.versionLine, c)
        else none
      else if name = "TAG".toList then tagLine? c
      else some (Token.tagLine "" "", c.skipLine)
    let (_, c) ← c.skipToEnd? true
    if endsLine c.peek then return (token, c.skipBreak) else none

end Schemata.Yaml
