import Schemata.Text.Digits
import Schemata.Text.Hexadecimal
import Schemata.Text.Reader

/-!
Texts and keys of TOML: basic texts in double quotes with escapes, literal ones in single quotes without,
both also over several lines between tripled quotes, and keys that are bare, quoted or dotted.
-/
namespace Schemata.Toml

def isBlank (c : Char) : Bool := c = ' ' || c = '\t'

def skipBlank (cs : List Char) : List Char := cs.dropWhile isBlank

def isPlain (c : Char) : Bool := c = '\t' || (0x20 ≤ c.toNat && c.toNat ≠ 0x7f)

/-- Blanks, line ends and comments; `none` if a comment holds a control character. -/
def skipLines? (inComment : Bool) : List Char → Option (List Char)
  | '\n' :: rest => skipLines? false rest
  | '\r' :: '\n' :: rest => skipLines? false rest
  | c :: rest =>
    if inComment then if isPlain c then skipLines? true rest else none
    else if c = '#' then skipLines? true rest
    else if isBlank c then skipLines? false rest
    else some (c :: rest)
  | [] => some []

/-- The rest of a line that holds nothing more than a comment, with its end. -/
def endLine? (cs : List Char) : Option (List Char) :=
  let cs := match skipBlank cs with
    | '#' :: rest => rest.dropWhile isPlain
    | rest => rest
  match cs with
  | [] => some []
  | '\n' :: rest => some rest
  | '\r' :: '\n' :: rest => some rest
  | _ => none

def unescape? : Char → Option Char
  | 'b' => some '\x08'
  | 't' => some '\t'
  | 'n' => some '\n'
  | 'f' => some '\x0c'
  | 'r' => some '\r'
  | '"' => some '"'
  | '\\' => some '\\'
  | _ => none

def basicRest (seen : List Char) : Text.Reader String
  | '"' :: rest => some (String.ofList seen.reverse, rest)
  | '\\' :: 'u' :: a :: b :: c :: d :: rest =>
    match Text.hexChar? [a, b, c, d] with
    | none => none
    | some x => basicRest (x :: seen) rest
  | '\\' :: 'U' :: a :: b :: c :: d :: e :: f :: g :: h :: rest =>
    match Text.hexChar? [a, b, c, d, e, f, g, h] with
    | none => none
    | some x => basicRest (x :: seen) rest
  | '\\' :: c :: rest =>
    match unescape? c with
    | none => none
    | some x => basicRest (x :: seen) rest
  | c :: rest => if isPlain c then basicRest (c :: seen) rest else none
  | [] => none

/-- What follows the opening quotes of a basic text over several lines. After a backslash at the end of a
line, blanks and line ends are skipped. Up to two quotes may stand before the closing ones. -/
def basicLines (skipping : Bool) (seen : List Char) : Text.Reader String
  | '"' :: '"' :: '"' :: '"' :: '"' :: rest => some (String.ofList ('"' :: '"' :: seen).reverse, rest)
  | '"' :: '"' :: '"' :: '"' :: rest => some (String.ofList ('"' :: seen).reverse, rest)
  | '"' :: '"' :: '"' :: rest => some (String.ofList seen.reverse, rest)
  | '\\' :: 'u' :: a :: b :: c :: d :: rest =>
    match Text.hexChar? [a, b, c, d] with
    | none => none
    | some x => basicLines false (x :: seen) rest
  | '\\' :: 'U' :: a :: b :: c :: d :: e :: f :: g :: h :: rest =>
    match Text.hexChar? [a, b, c, d, e, f, g, h] with
    | none => none
    | some x => basicLines false (x :: seen) rest
  | '\\' :: c :: rest =>
    match unescape? c with
    | some x => basicLines false (x :: seen) rest
    | none =>
      match skipBlank (c :: rest) with
      | '\n' :: _ => basicLines true seen (c :: rest)
      | '\r' :: '\n' :: _ => basicLines true seen (c :: rest)
      | _ => none
  | '\r' :: '\n' :: rest => basicLines skipping (if skipping then seen else '\n' :: seen) rest
  | '\n' :: rest => basicLines skipping (if skipping then seen else '\n' :: seen) rest
  | c :: rest =>
    if skipping && isBlank c then basicLines true seen rest
    else if isPlain c then basicLines false (c :: seen) rest
    else none
  | [] => none

def literalRest (seen : List Char) : Text.Reader String
  | '\'' :: rest => some (String.ofList seen.reverse, rest)
  | c :: rest => if isPlain c then literalRest (c :: seen) rest else none
  | [] => none

def literalLines (seen : List Char) : Text.Reader String
  | '\'' :: '\'' :: '\'' :: '\'' :: '\'' :: rest =>
    some (String.ofList ('\'' :: '\'' :: seen).reverse, rest)
  | '\'' :: '\'' :: '\'' :: '\'' :: rest => some (String.ofList ('\'' :: seen).reverse, rest)
  | '\'' :: '\'' :: '\'' :: rest => some (String.ofList seen.reverse, rest)
  | '\r' :: '\n' :: rest => literalLines ('\n' :: seen) rest
  | '\n' :: rest => literalLines ('\n' :: seen) rest
  | c :: rest => if isPlain c then literalLines (c :: seen) rest else none
  | [] => none

/-- A line end directly after tripled quotes does not count. -/
def dropLineEnd : List Char → List Char
  | '\n' :: rest => rest
  | '\r' :: '\n' :: rest => rest
  | rest => rest

def text? : Text.Reader String
  | '"' :: '"' :: '"' :: rest => basicLines false [] (dropLineEnd rest)
  | '"' :: rest => basicRest [] rest
  | '\'' :: '\'' :: '\'' :: rest => literalLines [] (dropLineEnd rest)
  | '\'' :: rest => literalRest [] rest
  | _ => none

def isBare (c : Char) : Bool := c.isAlphanum || c = '_' || c = '-'

/-- One key: bare, or a text on one line. -/
def simpleKey? : Text.Reader String
  | '"' :: rest => basicRest [] rest
  | '\'' :: rest => literalRest [] rest
  | cs =>
    match cs.span isBare with
    | ([], _) => none
    | (key, rest) => some (String.ofList key, rest)

def keyLimit : Nat := 79

/-- Keys with points between them, at most `bound`, and blanks around each. -/
def keysUpTo? : (bound : Nat) → Text.Reader (List String)
  | 0, _ => none
  | bound + 1, cs =>
    match simpleKey? (skipBlank cs) with
    | none => none
    | some (key, rest) =>
      match skipBlank rest with
      | '.' :: rest => (keysUpTo? bound rest).map fun more => (key :: more.1, more.2)
      | rest => some ([key], rest)

def keys? : Text.Reader (List String) := keysUpTo? keyLimit

end Schemata.Toml
