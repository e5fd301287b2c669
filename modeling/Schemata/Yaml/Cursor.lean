import Schemata.Text.Digits

/-!
A place in a YAML text, and the blanks, line ends and comments that are skipped from there.

A question about the next character also has an answer at the end of the text, so the classes of characters
are classes of `Option Char`.
-/
namespace Schemata.Yaml

def isBreak : Option Char → Bool
  | some c => c = '\n' || c = '\r'
  | none => false

def isBlank : Option Char → Bool
  | some c => c = ' ' || c = '\t'
  | none => false

def endsLine (c : Option Char) : Bool := c.isNone || isBreak c

def endsWord (c : Option Char) : Bool := isBlank c || endsLine c

def isFlowMark : Option Char → Bool
  | some c => c = ',' || c = '[' || c = ']' || c = '\x7b' || c = '\x7d'
  | none => false

structure Cursor where
  rest : List Char
  /-- The number of characters before. -/
  index : Nat
  line : Nat
  column : Nat
  /-- Whether there are only blanks before on the line. -/
  indenting : Bool

namespace Cursor

/-- The start of a text, which ends at its first NUL. -/
def start (cs : List Char) : Cursor := ⟨cs.takeWhile (· ≠ '\x00'), 0, 0, 0, true⟩

def peek (c : Cursor) : Option Char := c.rest.head?

def ahead (c : Cursor) (n : Nat) : Option Char := c.rest[n]?

def skip (n : Nat) (c : Cursor) : Cursor :=
  { c with rest := c.rest.drop n, index := c.index + n, column := c.column + n }

def take (n : Nat) (c : Cursor) : Cursor := { c.skip n with indenting := c.indenting && n = 0 }

def skipBreak (c : Cursor) : Cursor :=
  match c.rest with
  | '\r' :: '\n' :: rest => ⟨rest, c.index + 2, c.line + 1, 0, true⟩
  | '\n' :: rest => ⟨rest, c.index + 1, c.line + 1, 0, true⟩
  | '\r' :: rest => ⟨rest, c.index + 1, c.line + 1, 0, true⟩
  | _ => c

def skipLine (c : Cursor) : Cursor := c.take (c.rest.takeWhile fun x => !isBreak (some x)).length

structure Blanks where
  tabs : Bool
  spaces : Bool

/-- Passes blanks and a comment, which must have a blank before it. With `tabs` off only spaces are blanks. -/
def skipToEnd? (tabs : Bool) (c : Cursor) : Option (Blanks × Cursor) :=
  let passed := c.rest.takeWhile fun x => x = ' ' || (tabs && x = '\t')
  let found : Blanks := ⟨'\t' ∈ passed, ' ' ∈ passed⟩
  let c := c.skip passed.length
  if c.peek = some '#' then if passed.isEmpty then none else some (found, c.skipLine)
  else some (found, c)

/-- Whether one of the marks between documents, three of the character, stands here at the start of a line. -/
def isAtMark (mark : Char) (c : Cursor) : Bool :=
  c.column = 0 && c.rest.take 3 = [mark, mark, mark] && endsWord (c.ahead 3)

def isAtDocumentMark (c : Cursor) : Bool := c.isAtMark '-' || c.isAtMark '.'

/-- Passes blanks, line ends and comments, at most `bound` of them. With a `block` around, a tab cannot stand
in the blanks before its indentation, unless the line is empty. Says whether a line end was passed. -/
def skipToToken? (block : Option Int) : (bound : Nat) → (passed : Bool) → Cursor → Option (Bool × Cursor)
  | 0, _, _ => none
  | bound + 1, passed, c =>
    match c.peek with
    | some '\t' =>
      if c.indenting && block.any fun indent => (c.column : Int) < indent then
        match c.skipToEnd? true with
        | some (_, c) => if endsLine c.peek then skipToToken? block bound passed c else none
        | none => none
      else skipToToken? block bound passed (c.skip 1)
    | some ' ' => skipToToken? block bound passed (c.skip 1)
    | some '\n' | some '\r' => skipToToken? block bound true c.skipBreak
    | some '#' => skipToToken? block bound passed c.skipLine
    | _ => some (passed, c)

end Cursor

end Schemata.Yaml
