import Schemata.Text.Hexadecimal

/-!
Writing TOML texts and arrays of texts. A text is written in the plainest of the forms that need no escape:
in double quotes, in single quotes, in tripled double quotes, in tripled single quotes. Only where none of
them does is anything escaped.
-/
namespace Schemata.Toml

def longestRun (c : Char) (run : Nat) : List Char → Nat
  | [] => run
  | x :: rest => if x = c then longestRun c (run + 1) rest else max run (longestRun c 0 rest)

def needsCode (c : Char) : Bool :=
  (c.toNat < 0x20 && c ≠ '\t' && c ≠ '\n') || c.toNat = 0x7f

def escapedChar (c : Char) : List Char :=
  match c with
  | '\x08' => ['\\', 'b']
  | '\t' => ['\\', 't']
  | '\x0c' => ['\\', 'f']
  | '\r' => ['\\', 'r']
  | '\\' => ['\\', '\\']
  | c =>
    if needsCode c then
      ['\\', 'u', '0', '0'] ++ (Text.hexBytes [UInt8.ofNat c.toNat]).map Char.toUpper
    else [c]

def basic (cs : List Char) : List Char :=
  cs.flatMap fun
    | '"' => ['\\', '"']
    | '\n' => ['\\', 'n']
    | c => escapedChar c

/-- The inside of a text in tripled double quotes: every third quote in a row is escaped. -/
def basicBlock (quotes : Nat) : List Char → List Char
  | [] => []
  | '"' :: rest =>
    if quotes = 2 then '\\' :: '"' :: basicBlock 0 rest else '"' :: basicBlock (quotes + 1) rest
  | c :: rest => escapedChar c ++ basicBlock 0 rest

def quote (s : String) : List Char :=
  let cs := s.toList
  let codes := cs.any needsCode
  let escapes := '\\' ∈ cs
  let lines := '\n' ∈ cs
  let opening := if lines then ['\n'] else []
  if ¬(codes ∨ escapes ∨ lines ∨ '"' ∈ cs) then '"' :: basic cs ++ ['"']
  else if ¬(codes ∨ lines ∨ '\'' ∈ cs) then '\'' :: cs ++ ['\'']
  else if ¬(codes ∨ escapes ∨ 2 < longestRun '"' 0 cs) then
    ['"', '"', '"'] ++ opening ++ basicBlock 0 cs ++ ['"', '"', '"']
  else if ¬(codes ∨ 2 < longestRun '\'' 0 cs) then
    ['\'', '\'', '\''] ++ opening ++ cs ++ ['\'', '\'', '\'']
  else if lines then ['"', '"', '"'] ++ opening ++ basicBlock 0 cs ++ ['"', '"', '"']
  else '"' :: basic cs ++ ['"']

/-- An array: on one line if it has at most one item, else with a line for each. -/
def array (items : List String) : List Char :=
  match items with
  | [] => ['[', ']']
  | [item] => '[' :: quote item ++ [']']
  | items => ['[', '\n'] ++ items.flatMap (fun item => "    ".toList ++ quote item ++ [',', '\n']) ++ [']']

example : String.ofList (quote "a\\b") = "'a\\b'" := by decide +kernel

example : String.ofList (quote "it's \"x\"") = "\"\"\"it's \"x\"\"\"\"" := by decide +kernel

end Schemata.Toml
