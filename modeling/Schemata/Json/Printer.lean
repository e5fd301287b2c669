import Schemata.Json.Basic
import Schemata.Number.Shortest
import Schemata.Text.Hexadecimal

/-!
The text of a document, on one line or indented by two blanks a level.
-/
namespace Schemata.Json

/-- Doubles are positional from five places after the point to sixteen digits before it, and then hold at
least one digit after the point. -/
def doubleLayout : Double.Layout where
  positional scale := -5 ≤ scale && scale ≤ 15
  wholeMark := true

def numberText : Number → List Char
  | .whole n => if n.value < 0 then '-' :: Text.decimal n.value.natAbs else Text.decimal n.value.natAbs
  | .double d => doubleLayout.write d

/-- Escapes the quote, the backslash and the controls below the blank; all else stands for itself. -/
def escaped (c : Char) : List Char :=
  match c with
  | '"' => ['\\', '"']
  | '\\' => ['\\', '\\']
  | '\x08' => ['\\', 'b']
  | '\x0c' => ['\\', 'f']
  | '\n' => ['\\', 'n']
  | '\r' => ['\\', 'r']
  | '\t' => ['\\', 't']
  | c =>
    if c.toNat < 0x20 then
      ['\\', 'u', '0', '0', Text.hexDigit (c.toNat / 16), Text.hexDigit (c.toNat % 16)]
    else [c]

def stringText (s : String) : List Char := '"' :: s.toList.flatMap escaped ++ ['"']

mutual
/-- The text on one line, without blanks. -/
def compact : Json → List Char
  | null => ['n', 'u', 'l', 'l']
  | bool true => ['t', 'r', 'u', 'e']
  | bool false => ['f', 'a', 'l', 's', 'e']
  | number n => numberText n
  | string s => stringText s
  | array [] => ['[', ']']
  | array (v :: rest) => '[' :: compact v ++ compactItems rest
  | object [] => ['{', '}']
  | object ((k, v) :: rest) => '{' :: stringText k ++ ':' :: compact v ++ compactMembers rest

/-- The items after the first one, and the closing bracket. -/
def compactItems : List Json → List Char
  | [] => [']']
  | v :: rest => ',' :: compact v ++ compactItems rest

def compactMembers : List (String × Json) → List Char
  | [] => ['}']
  | (k, v) :: rest => ',' :: stringText k ++ ':' :: compact v ++ compactMembers rest
end

def newline (level : Nat) : List Char := '\n' :: List.replicate (2 * level) ' '

mutual
/-- The text with a line for every item and member; an empty array or object stays on its line. -/
def indented (level : Nat) : Json → List Char
  | array [] => ['[', ']']
  | array (v :: rest) =>
    '[' :: newline (level + 1) ++ indented (level + 1) v ++ indentedItems level rest
  | object [] => ['{', '}']
  | object ((k, v) :: rest) =>
    '{' :: newline (level + 1) ++ stringText k ++ [':', ' '] ++ indented (level + 1) v ++
      indentedMembers level rest
  | null => ['n', 'u', 'l', 'l']
  | bool true => ['t', 'r', 'u', 'e']
  | bool false => ['f', 'a', 'l', 's', 'e']
  | number n => numberText n
  | string s => stringText s

def indentedItems (level : Nat) : List Json → List Char
  | [] => newline level ++ [']']
  | v :: rest => ',' :: newline (level + 1) ++ indented (level + 1) v ++ indentedItems level rest

def indentedMembers (level : Nat) : List (String × Json) → List Char
  | [] => newline level ++ ['}']
  | (k, v) :: rest =>
    ',' :: newline (level + 1) ++ stringText k ++ [':', ' '] ++ indented (level + 1) v ++
      indentedMembers level rest
end

def text (v : Json) : String := String.ofList v.compact

def prettyText (v : Json) : String := String.ofList (v.indented 0)

end Schemata.Json
