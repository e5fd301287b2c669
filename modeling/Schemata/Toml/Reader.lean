import Schemata.Toml.Value

/-!
Reading a TOML document: lines of keys with values, under headers of tables.
-/
namespace Schemata.Toml

/-- The part of a document read so far, and the keys of the header that holds from here on. -/
structure Draft where
  root : Entries
  header : List String

namespace Draft

def empty : Draft := ⟨[], []⟩

def atHeader? (keys : List String) (change : Option Node → Option Node) (d : Draft) : Option Draft :=
  match keys.reverse with
  | [] => none
  | key :: lead =>
    let place (_ : Origin) (entries : Entries) : Option Entries :=
      (change (entries.lookup key)).map fun node => put key node entries
    (within? false place lead.reverse .written d.root).map fun root => ⟨root, keys⟩

/-- Starts a table. One that was only implied can still be started. -/
def startTable? (keys : List String) (d : Draft) : Option Draft :=
  d.atHeader? keys fun
    | none => some (.table .written [])
    | some (.table .implied entries) => some (.table .written entries)
    | some _ => none

def startRow? (keys : List String) (d : Draft) : Option Draft :=
  d.atHeader? keys fun
    | none => some (.rows [[]])
    | some (.rows tables) => some (.rows (tables ++ [[]]))
    | some _ => none

def add? (keys : List String) (v : Setting) (d : Draft) : Option Draft :=
  (within? false (fun _ entries => assign? keys v entries) d.header .written d.root).map fun root =>
    { d with root }

end Draft

def line? (d : Draft) (cs : List Char) : Option (Draft × List Char) :=
  let ended (d : Option Draft) (rest : List Char) : Option (Draft × List Char) := do
    return (← d, ← endLine? rest)
  match cs with
  | '[' :: '[' :: rest =>
    match keys? rest with
    | some (keys, ']' :: ']' :: rest) => ended (d.startRow? keys) rest
    | _ => none
  | '[' :: rest =>
    match keys? rest with
    | some (keys, ']' :: rest) => ended (d.startTable? keys) rest
    | _ => none
  | cs =>
    match pair? (value? nestingLimit) cs with
    | some ((keys, v), rest) => ended (d.add? keys v) rest
    | none => none

def lines? : (bound : Nat) → Draft → List Char → Option Draft
  | 0, _, _ => none
  | bound + 1, d, cs =>
    match skipLines? false cs with
    | none => none
    | some [] => some d
    | some cs => (line? d cs).bind fun found => lines? bound found.1 found.2

/-- The entries of a document, which has to be a table. A byte order mark at its start is skipped. -/
def read? (s : String) : Option (List (String × Setting)) :=
  let cs := match s.toList with
    | '\ufeff' :: rest => rest
    | cs => cs
  match (lines? (cs.length + 1) .empty cs).bind fun d => (Node.table .written d.root).toSetting? with
  | some (.table entries) => some entries.entries
  | _ => none

end Schemata.Toml
