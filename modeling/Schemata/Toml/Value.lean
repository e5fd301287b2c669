import Schemata.Toml.Scalar

/-!
Values of TOML, and the tables that lines, headers and inline tables fill in.

A table knows how it came to be: written out by a header or in braces, implied by a longer header, or named
by the points of a key. Only an implied table can still get a header, and only a table named by points can
be extended by them. A table keeps its keys in the order of the document, because the first one may be the
reserved key of dates and times: then the table stands for a date or time.
-/
namespace Schemata.Toml

inductive Origin where
  | written
  | implied
  | dotted
deriving DecidableEq, Repr

inductive Node where
  | value (v : Setting)
  | table (origin : Origin) (entries : List (String × Node))
  /-- The tables under one repeated header. -/
  | rows (tables : List (List (String × Node)))

abbrev Entries := List (String × Node)

/-- Adds an entry at the end, or gives a key that is there its new node in place. -/
def put (key : String) (node : Node) : Entries → Entries
  | [] => [(key, node)]
  | (k, n) :: rest => if k = key then (k, node) :: rest else (k, n) :: put key node rest

/-- Changes the table that a row of keys leads to, the last one under a repeated header; makes what is
missing on the way. -/
def within? (dotted : Bool) (change : Origin → Entries → Option Entries) :
    List String → Origin → Entries → Option Entries
  | [], origin, entries => change origin entries
  | key :: rest, _, entries =>
    match entries.lookup key with
    | none =>
      let origin := if dotted then Origin.dotted else .implied
      (within? dotted change rest origin []).map fun inner =>
        put key (.table origin inner) entries
    | some (.table origin inner) =>
      if dotted && origin = .written then none
      else (within? dotted change rest origin inner).map fun inner =>
        put key (.table origin inner) entries
    | some (.rows tables) =>
      match tables.reverse with
      | [] => none
      | last :: before => (within? dotted change rest .written last).map fun last =>
          put key (.rows (last :: before).reverse) entries
    | some (.value _) => none

def assign? (keys : List String) (v : Setting) (entries : Entries) : Option Entries :=
  match keys.reverse with
  | [] => none
  | key :: lead =>
    let add (origin : Origin) (entries : Entries) : Option Entries :=
      if (origin == .dotted) == lead.isEmpty || (entries.lookup key).isSome then none
      else some (put key (.value v) entries)
    within? true add lead.reverse .written entries

def tableOf? : List (String × Setting) → Option Setting
  | [] => some Setting.empty
  | (key, v) :: rest =>
    if key = Moment.reservedKey then
      match v with
      | .text s => (Moment.ofText? s).map .text
      | _ => none
    else some (.table (.ofList ((key, v) :: rest)))

mutual
/-- The value of a node, unless a table in it has the reserved key first and no date or time under it. -/
def Node.toSetting? : Node → Option Setting
  | .value v => some v
  | .table _ entries => (settingsOf? entries).bind tableOf?
  | .rows tables => (settingsOfRows? tables).map .list

def settingsOf? : Entries → Option (List (String × Setting))
  | [] => some []
  | (key, node) :: rest =>
    match node.toSetting?, settingsOf? rest with
    | some v, some more => some ((key, v) :: more)
    | _, _ => none

def settingsOfRows? : List Entries → Option (List Setting)
  | [] => some []
  | entries :: rest =>
    match (settingsOf? entries).bind tableOf?, settingsOfRows? rest with
    | some v, some more => some (v :: more)
    | _, _ => none
end

def items? (item : Text.Reader Setting) : (bound : Nat) → (seen : List Setting) → Text.Reader (List Setting)
  | 0, _, _ => none
  | bound + 1, seen, cs =>
    match skipLines? false cs with
    | none => none
    | some (']' :: rest) => some (seen.reverse, rest)
    | some cs =>
      match item cs with
      | none => none
      | some (v, rest) =>
        match skipLines? false rest with
        | some (',' :: rest) => items? item bound (v :: seen) rest
        | some (']' :: rest) => some ((v :: seen).reverse, rest)
        | _ => none

def pair? (item : Text.Reader Setting) : Text.Reader (List String × Setting) := fun cs =>
  match keys? cs with
  | some (keys, '=' :: rest) =>
    (item (skipBlank rest)).map fun found => ((keys, found.1), found.2)
  | _ => none

def pairs? (item : Text.Reader Setting) : (bound : Nat) → Entries → Text.Reader Entries
  | 0, _, _ => none
  | bound + 1, entries, cs =>
    match pair? item cs with
    | none => none
    | some ((keys, v), rest) =>
      match assign? keys v entries with
      | none => none
      | some entries =>
        match skipBlank rest with
        | '}' :: rest => some (entries, rest)
        | ',' :: rest => pairs? item bound entries rest
        | _ => none

def nestingLimit : Nat := 79

/-- A value; arrays and inline tables in it nest at most `depth` deep. -/
def value? : (depth : Nat) → Text.Reader Setting
  | 0, cs => flat? cs
  | depth + 1, cs =>
    match cs with
    | '[' :: rest =>
      (items? (value? depth) (rest.length + 1) [] rest).map fun found => (.list found.1, found.2)
    | '{' :: rest =>
      match skipBlank rest with
      | '}' :: rest => some (Setting.empty, rest)
      | rest => (pairs? (value? depth) rest.length [] rest).bind fun found =>
          (Node.table .written found.1).toSetting?.map fun v => (v, found.2)
    | cs => flat? cs
where
  /-- A text or a value of one word. -/
  flat? : Text.Reader Setting
    | '"' :: rest => (text? ('"' :: rest)).map fun found => (.text found.1, found.2)
    | '\'' :: rest => (text? ('\'' :: rest)).map fun found => (.text found.1, found.2)
    | cs => word? cs

end Schemata.Toml
