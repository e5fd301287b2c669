import Schemata.Settings.Value
import Schemata.Text.Hexadecimal
import Schemata.Text.Space

/-!
Reading an INI document: lines `key = value` or `key: value`, under headers `[section]`. Every value is a
text.

A key or a section name reaches to its closing mark, even over lines, and a value to the end of its line. The
parts of a value in quotes are kept with their blanks. A comment is a line that starts with `;` or `#`. A
backslash takes the meaning from the character after it, or stands for a control.
-/
namespace Schemata.Ini

/-- What a backslash and a character stand for. A line end after a backslash does not count. -/
def unescape : Char → List Char
  | '0' => ['\x00']
  | 'a' => ['\x07']
  | 'b' => ['\x08']
  | 't' => ['\t']
  | 'r' => ['\r']
  | 'n' => ['\n']
  | '\n' => []
  | c => [c]

/-- The characters up to the first that is a closing mark, which is left over. With `openEnded` the end of the
document closes too. After `\x` a code point is written by four digits, the first of which may be a plus
sign. -/
def readUntil (closes : Char → Bool) (openEnded : Bool) (seen : List Char) :
    List Char → Option (List Char × List Char)
  | [] => if openEnded then some (seen.reverse, []) else none
  | '\\' :: 'x' :: a :: b :: c :: d :: rest =>
    match Text.hexChar? (Text.dropPlus [a, b, c, d]) with
    | some x => readUntil closes openEnded (x :: seen) rest
    | none => none
  | '\\' :: c :: rest =>
    if c = 'x' then none else readUntil closes openEnded (unescape c ++ seen) rest
  | c :: rest =>
    if c = '\\' then none
    else if closes c then some (seen.reverse, c :: rest)
    else readUntil closes openEnded (c :: seen) rest

def isLineEnd (c : Char) : Bool := c = '\n' || c = '\r'

/-- A value: parts in quotes, at most `bound` of them, and the rest of the line. The rest loses the white
space at its end, and where it is all of the value also that at its start. -/
def readValue : (bound : Nat) → (first : Bool) → List Char → Option (List Char × List Char)
  | 0, _, _ => none
  | bound + 1, first, cs =>
    let quoted (q : Char) (rest : List Char) : Option (List Char × List Char) := do
      let (part, rest) ← readUntil (· = q) false [] rest
      let (more, rest) ← readValue bound false (rest.drop 1)
      return (part ++ more, rest)
    match cs with
    | '"' :: rest => quoted '"' rest
    | '\'' :: rest => quoted '\'' rest
    | cs => (readUntil isLineEnd true [] cs).map fun (part, rest) =>
        (if first then Text.trim part else Text.trimEnd part, rest)

structure Draft where
  /-- The entries before the first section. -/
  top : List (String × Setting)
  sections : List (String × List (String × Setting))

namespace Draft

def empty : Draft := ⟨[], []⟩

def startSection (name : String) (d : Draft) : Draft := { d with sections := (name, []) :: d.sections }

def add (key value : String) (d : Draft) : Draft :=
  match d.sections with
  | [] => { d with top := (key, .text value) :: d.top }
  | (name, entries) :: before => { d with sections := (name, (key, .text value) :: entries) :: before }

/-- The entries of the document. Of keys or sections of one name the last counts. -/
def entries (d : Draft) : List (String × Setting) :=
  let sections := d.sections.reverse.map fun (name, entries) =>
    (name, Setting.table (.ofList entries.reverse))
  (Table.ofList (d.top.reverse ++ sections)).entries

end Draft

def skipSpace (lineStart : Bool) : List Char → Bool × List Char
  | c :: rest => if Text.isSpace c then skipSpace (c = '\n') rest else (lineStart, c :: rest)
  | [] => (lineStart, [])

def readLines : (bound : Nat) → (lineStart : Bool) → Draft → List Char → Option Draft
  | 0, _, _, _ => none
  | bound + 1, lineStart, d, cs =>
    match skipSpace lineStart cs with
    | (_, []) => some d
    | (lineStart, c :: rest) =>
      if c = ';' || c = '#' then
        if lineStart then readLines bound true d ((rest.dropWhile (· ≠ '\n')).drop 1) else none
      else if c = '[' then
        match readUntil (· = ']') false [] rest with
        | none => none
        | some (name, rest) =>
          readLines bound false (d.startSection (String.ofList (Text.trim name))) (rest.drop 1)
      else
        match readUntil (fun c => c = '=' || c = ':') false [] (c :: rest) with
        | none => none
        | some (key, rest) =>
          let key := Text.trim key
          let value := (rest.drop 1).dropWhile fun c => Text.isSpace c && !isLineEnd c
          match readValue (value.length + 1) true value with
          | none => none
          | some (value, rest) =>
            if key.isEmpty then none
            else readLines bound false (d.add (String.ofList key) (String.ofList value)) rest

def read? (s : String) : Option (List (String × Setting)) :=
  (readLines (s.length + 1) true .empty s.toList).map Draft.entries

end Schemata.Ini
