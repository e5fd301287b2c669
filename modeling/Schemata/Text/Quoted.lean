import Schemata.Text.Hexadecimal
import Schemata.Text.Printable

/-!
Quoted text, as error messages show names: in double quotes, the quote and the backslash escaped, the four
common controls by their letter, whatever is not visible by its code point, and all else as it is.
-/
namespace Schemata.Text

def quotedChar (c : Char) : List Char :=
  match c with
  | '"' => ['\\', '"']
  | '\\' => ['\\', '\\']
  | '\n' => ['\\', 'n']
  | '\r' => ['\\', 'r']
  | '\t' => ['\\', 't']
  | '\x00' => ['\\', '0']
  | c => if isVisible c then [c] else ['\\', 'u', '{'] ++ hexadecimal c.toNat ++ ['}']

def quoted (s : String) : String :=
  String.ofList ('"' :: s.toList.flatMap quotedChar ++ ['"'])

example : quoted "a\"b\\c\n\x7f" = "\"a\\\"b\\\\c\\n\\u\x7b7f\x7d\"" := by decide +kernel

end Schemata.Text
