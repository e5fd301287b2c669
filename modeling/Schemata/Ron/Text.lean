import Schemata.Text.Hexadecimal
import Schemata.Text.Reader

/-!
Blanks, names and texts of RON: comments that nest, names with letters, digits and `_`, texts in quotes with
escapes or raw between hashes, and single characters.
-/
namespace Schemata.Ron

def isBlank (c : Char) : Bool := c = ' ' || c = '\t' || c = '\n' || c = '\r'

/-- What follows a comment inside of which `depth` more are open; `none` if it is not closed. At most `bound`
characters are passed. -/
def afterComment? : (bound depth : Nat) → List Char → Option (List Char)
  | 0, _, _ => none
  | bound + 1, depth, '/' :: '*' :: rest => afterComment? bound (depth + 1) rest
  | _ + 1, 0, '*' :: '/' :: rest => some rest
  | bound + 1, depth + 1, '*' :: '/' :: rest => afterComment? bound depth rest
  | bound + 1, depth, _ :: rest => afterComment? bound depth rest
  | _ + 1, _, [] => none

def skipUpTo? : (bound : Nat) → List Char → Option (List Char)
  | 0, _ => none
  | bound + 1, cs =>
    match cs.dropWhile isBlank with
    | '/' :: '/' :: rest => skipUpTo? bound (rest.dropWhile (· ≠ '\n'))
    | '/' :: '*' :: rest => (afterComment? (rest.length + 1) 0 rest).bind (skipUpTo? bound)
    | '/' :: _ => none
    | rest => some rest

def skipBlank? (cs : List Char) : Option (List Char) := skipUpTo? (cs.length + 1) cs

def isNameStart (c : Char) : Bool := c.isAlpha || c = '_'

def isNameChar (c : Char) : Bool := c.isAlphanum || c = '_'

def isRawNameChar (c : Char) : Bool := isNameChar c || c = '.' || c = '+' || c = '-'

/-- What follows a word that does not go on as a longer name. -/
def afterWord? (word : String) (cs : List Char) : Option (List Char) :=
  if word.toList.isPrefixOf cs then
    let rest := cs.drop word.length
    if rest.head?.any isNameChar then none else some rest
  else none

/-- A name. A text that is raw starts like a name but is none. -/
def name? : Text.Reader String
  | 'r' :: '"' :: _ => none
  | 'r' :: '#' :: rest =>
    match rest.span isRawNameChar with
    | ([], _) => none
    | (name, rest) => some (String.ofList name, rest)
  | ['r'] => none
  | c :: rest =>
    if isNameStart c then
      let (name, rest) := (c :: rest).span isNameChar
      some (String.ofList name, rest)
    else none
  | [] => none

def unescape? : Char → Option Char
  | '\'' => some '\''
  | '"' => some '"'
  | '\\' => some '\\'
  | 'n' => some '\n'
  | 'r' => some '\r'
  | 't' => some '\t'
  | '0' => some '\x00'
  | _ => none

/-- What follows a backslash: one character, two digits after `x`, or one to six in braces after `u`. -/
def escape? : Text.Reader Char
  | 'x' :: a :: b :: rest => (Text.hexChar? [a, b]).map fun c => (c, rest)
  | 'u' :: '\x7b' :: rest =>
    match rest.span (· ≠ '\x7d') with
    | (ds, _ :: rest) =>
      if ds.isEmpty || 6 < ds.length then none else (Text.hexChar? ds).map fun c => (c, rest)
    | _ => none
  | c :: rest => (unescape? c).map fun c => (c, rest)
  | [] => none

def quotedRest : (bound : Nat) → (seen : List Char) → Text.Reader String
  | 0, _, _ => none
  | _ + 1, seen, '"' :: rest => some (String.ofList seen.reverse, rest)
  | bound + 1, seen, '\\' :: rest =>
    match escape? rest with
    | some (c, rest) => quotedRest bound (c :: seen) rest
    | none => none
  | bound + 1, seen, c :: rest => quotedRest bound (c :: seen) rest
  | _ + 1, _, [] => none

/-- The rest of a raw text, up to a quote that is followed by as many hashes as there were before it. -/
def rawRest (closing : List Char) (seen : List Char) : Text.Reader String
  | [] => none
  | c :: rest =>
    if closing.isPrefixOf (c :: rest) then
      some (String.ofList seen.reverse, rest.drop (closing.length - 1))
    else rawRest closing (c :: seen) rest

def text? : Text.Reader String
  | '"' :: rest => quotedRest (rest.length + 1) [] rest
  | 'r' :: rest =>
    let (hashes, rest) := rest.span (· = '#')
    match rest with
    | '"' :: rest => rawRest ('"' :: hashes) [] rest
    | _ => none
  | _ => none

def char? : Text.Reader Char
  | '\'' :: '\\' :: rest =>
    match escape? rest with
    | some (c, '\'' :: rest) => some (c, rest)
    | _ => none
  | '\'' :: c :: '\'' :: rest => if c = '\'' then none else some (c, rest)
  | _ => none

end Schemata.Ron
