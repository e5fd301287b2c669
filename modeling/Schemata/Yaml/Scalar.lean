import Schemata.Text.Hexadecimal
import Schemata.Yaml.Cursor

/-!
The texts of YAML scalars: plain, in quotes, and as blocks of lines.

In plain and quoted texts a single line end is a blank, and of several all but the first are kept. What is
read so far is held in a `Draft`, the last character first, with the blanks that follow it apart.
-/
namespace Schemata.Yaml

structure Draft where
  seen : List Char
  /-- The blanks on the line of what was seen. -/
  blanks : List Char
  /-- Whether a line ended after it. -/
  broken : Bool
  /-- The number of further line ends. -/
  more : Nat

namespace Draft

def empty : Draft := ⟨[], [], false, 0⟩

/-- Folds the line ends: one is a blank, and of several all but the first are kept. -/
def fold (d : Draft) : Draft :=
  ⟨if d.broken && d.more = 0 then ' ' :: d.seen else List.replicate d.more '\n' ++ d.seen, [], false, 0⟩

def join (d : Draft) : Draft := ⟨d.blanks ++ d.seen, [], false, 0⟩

def add (cs : List Char) (d : Draft) : Draft := { d with seen := cs.reverse ++ d.seen }

def text (d : Draft) : String := String.ofList d.seen.reverse

end Draft

/-- Whether the characters from here can go on a plain text: a colon ends it before a blank, and inside of
brackets their marks end it too. -/
def continuesPlain (flow : Bool) : List Char → Bool
  | [] => false
  | c :: rest =>
    if c = ':' && (endsWord rest.head? || (flow && isFlowMark rest.head?)) then false
    else !(flow && isFlowMark (some c)) && !endsWord (some c)

def plainRun (flow : Bool) : List Char → List Char
  | [] => []
  | c :: rest => if continuesPlain flow (c :: rest) then c :: plainRun flow rest else []

/-- Passes the blanks and line ends after a part of a plain text, at most `bound` of them. A tab that stands
before the indentation has to be on an empty line. -/
def plainGap? (indent : Int) : (bound : Nat) → Draft → Cursor → Option (Draft × Cursor)
  | 0, _, _ => none
  | bound + 1, d, c =>
    if isBlank c.peek then
      if !c.indenting then plainGap? indent bound { d with blanks := c.peek.toList ++ d.blanks } (c.skip 1)
      else if (c.column : Int) < indent && c.peek = some '\t' then
        match c.skipToEnd? true with
        | some (_, c) => if endsLine c.peek then plainGap? indent bound d c else none
        | none => none
      else plainGap? indent bound d (c.skip 1)
    else if isBreak c.peek then
      if c.indenting then plainGap? indent bound { d with more := d.more + 1 } c.skipBreak
      else plainGap? indent bound { d with blanks := [], broken := true } c.skipBreak
    else some (d, c)

/-- The parts of a plain text, at most `bound` of them. Outside of brackets it ends where a line is not
indented far enough. -/
def plainParts? (flow : Bool) (indent : Int) : (bound : Nat) → Draft → Cursor → Option (Draft × Cursor)
  | 0, _, _ => none
  | bound + 1, d, c =>
    if c.isAtDocumentMark || c.peek = some '#' then some (d, c)
    else if flow && c.peek = some '-' && isFlowMark (c.ahead 1) then none
    else
      let run := plainRun flow c.rest
      let (d, c) :=
        if run.isEmpty then (d, c)
        else ((if c.indenting then d.fold else d.join).add run, c.take run.length)
      if !(isBlank c.peek || isBreak c.peek) then some (d, c)
      else
        match plainGap? indent (c.rest.length + 1) d c with
        | none => none
        | some (d, c) =>
          if !flow && (c.column : Int) < indent then some (d, c)
          else plainParts? flow indent bound d c

def plain? (flow : Bool) (indent : Int) (c : Cursor) : Option (String × Cursor) :=
  if flow && (c.column : Int) < indent + 1 then none
  else (plainParts? flow (indent + 1) (c.rest.length + 1) .empty c).map fun found =>
    (found.1.text, found.2)

def unescape? : Char → Option Char
  | '0' => some '\x00'
  | 'a' => some '\x07'
  | 'b' => some '\x08'
  | 't' => some '\t'
  | '\t' => some '\t'
  | 'n' => some '\n'
  | 'v' => some '\x0b'
  | 'f' => some '\x0c'
  | 'r' => some '\r'
  | 'e' => some '\x1b'
  | ' ' => some ' '
  | '"' => some '"'
  | '/' => some '/'
  | '\\' => some '\\'
  | 'N' => some '\x85'
  | '_' => some '\xa0'
  | 'L' => some '\u2028'
  | 'P' => some '\u2029'
  | _ => none

def escape? : List Char → Option (Char × Nat)
  | 'x' :: rest => digits 2 rest
  | 'u' :: rest => digits 4 rest
  | 'U' :: rest => digits 8 rest
  | c :: _ => (unescape? c).map fun x => (x, 1)
  | [] => none
where
  digits (width : Nat) (cs : List Char) : Option (Char × Nat) :=
    let ds := cs.take width
    if ds.length = width then (Text.hexChar? ds).map fun x => (x, width + 1) else none

/-- The characters of a quoted text up to a blank, a line end or the closing quote, at most `bound` of them.
In double quotes a backslash at the end of a line takes the line end away; says whether that was so. -/
def quotedRun? (quote : Char) :
    (bound : Nat) → List Char → Cursor → Option (Bool × List Char × Cursor)
  | 0, _, _ => none
  | bound + 1, seen, c =>
    match c.rest with
    | '\'' :: '\'' :: _ =>
      if quote = '\'' then quotedRun? quote bound ('\'' :: seen) (c.take 2)
      else quotedRun? quote bound ('\'' :: seen) (c.take 1)
    | x :: rest =>
      if endsWord (some x) || x = quote then some (false, seen, c)
      else if x = '\\' && quote = '"' then
        if isBreak rest.head? then some (true, seen, (c.take 1).skipBreak)
        else
          match escape? rest with
          | some (y, width) => quotedRun? quote bound (y :: seen) (c.take (width + 1))
          | none => none
      else quotedRun? quote bound (x :: seen) (c.take 1)
    | [] => some (false, seen, c)

/-- Passes the blanks and line ends inside of a quoted text, at most `bound` of them. After a line end, a tab
cannot stand before the indentation. -/
def quotedGap? (indent : Int) :
    (bound : Nat) → (newLine : Bool) → Draft → Cursor → Option (Bool × Draft × Cursor)
  | 0, _, _, _ => none
  | bound + 1, newLine, d, c =>
    if isBlank c.peek then
      if newLine then
        if c.peek = some '\t' && (c.column : Int) < indent then none
        else quotedGap? indent bound true d (c.skip 1)
      else quotedGap? indent bound false { d with blanks := c.peek.toList ++ d.blanks } (c.skip 1)
    else if isBreak c.peek then
      if newLine then quotedGap? indent bound true { d with more := d.more + 1 } c.skipBreak
      else quotedGap? indent bound true { d with blanks := [], broken := true } c.skipBreak
    else some (newLine, d, c)

def quotedParts? (quote : Char) (indent : Int) :
    (bound : Nat) → Draft → Cursor → Option (Draft × Cursor)
  | 0, _, _ => none
  | bound + 1, d, c =>
    if c.isAtDocumentMark || c.peek.isNone || (c.column : Int) < indent then none
    else
      match quotedRun? quote (c.rest.length + 1) d.seen c with
      | none => none
      | some (newLine, seen, c) =>
        let d := { d with seen }
        if c.peek = some quote then some (d, c.take 1)
        else
          match quotedGap? indent (c.rest.length + 1) newLine d c with
          | none => none
          | some (newLine, d, c) =>
            quotedParts? quote indent bound (if newLine then d.fold else d.join) c

/-- A text in quotes. After it comes the end of the line, the colon of a key, or inside of brackets one of
their marks. Outside of brackets the text of a key stands on one line. -/
def quoted? (flow : Bool) (indent : Int) (start : Cursor) : Option (String × Cursor) := do
  let quote ← start.peek
  let (d, c) ← quotedParts? quote indent (start.rest.length + 1) .empty (start.take 1)
  let (_, c) ← c.skipToEnd? true
  let closed :=
    endsLine c.peek ||
    (c.peek = some ':' && (flow || c.line = start.line)) ||
    (flow && (c.peek = some ',' || c.peek = some '\x7d' || c.peek = some ']'))
  if closed then return (d.text, c) else none

inductive Chomping where
  | strip
  | clip
  | keep
deriving DecidableEq, Repr

def Chomping.of? : Option Char → Option Chomping
  | some '+' => some keep
  | some '-' => some strip
  | _ => none

def blockHead? (c : Cursor) : Option (Chomping × Option Nat × Cursor) :=
  let digit? (c : Cursor) : Option (Option Nat × Cursor) :=
    match c.peek with
    | some '0' => none
    | some x => if Text.isDigit x then some (some (Text.digitValue x), c.take 1) else some (none, c)
    | none => some (none, c)
  match Chomping.of? c.peek with
  | some chomping => (digit? (c.take 1)).map fun (digit, c) => (chomping, digit, c)
  | none =>
    match digit? c with
    | none => none
    | some (none, c) => some (.clip, none, c)
    | some (some digit, c) =>
      match Chomping.of? c.peek with
      | some chomping => some (chomping, some digit, c.take 1)
      | none => some (.clip, some digit, c)

def blockGap (indent : Nat) : (bound : Nat) → (lines : Nat) → Cursor → Nat × Cursor
  | 0, lines, c => (lines, c)
  | bound + 1, lines, c =>
    let spaces := (c.rest.takeWhile (· = ' ')).length
    let c := c.skip (min spaces (indent - c.column))
    if isBreak c.peek then blockGap indent bound (lines + 1) c.skipBreak else (lines, c)

/-- Passes all spaces and the empty lines at the start of a block, at most `bound` of them; counts the lines
and finds the widest indentation. -/
def blockStart : (bound : Nat) → (widest lines : Nat) → Cursor → Nat × Nat × Cursor
  | 0, widest, lines, c => (widest, lines, c)
  | bound + 1, widest, lines, c =>
    let c := c.skip (c.rest.takeWhile (· = ' ')).length
    let widest := max widest c.column
    if isBreak c.peek then blockStart bound widest (lines + 1) c.skipBreak else (widest, lines, c)

structure BlockDraft where
  seen : List Char
  /-- Whether the last line ended. -/
  ended : Bool
  /-- The number of empty lines after it. -/
  empty : Nat
  /-- Whether the last line started with a blank. -/
  blank : Bool

/-- The lines of a block, at most `bound` of them. Where lines are folded, a line end between two lines that
start with no blank is a blank, or nothing if empty lines follow. -/
def blockLines (folded : Bool) (indent : Nat) :
    (bound : Nat) → BlockDraft → Cursor → BlockDraft × Cursor
  | 0, d, c => (d, c)
  | bound + 1, d, c =>
    if c.column = indent && c.peek.isSome && !(indent = 0 && c.isAtMark '.') then
      let blank := isBlank c.peek
      let ends := List.replicate d.empty '\n'
      let lead :=
        if folded && d.ended && !d.blank && !blank then if d.empty = 0 then [' '] else ends
        else if d.ended then '\n' :: ends else ends
      let line := c.rest.takeWhile fun x => !isBreak (some x)
      let seen := line.reverse ++ lead ++ d.seen
      let c := c.take line.length
      if c.peek.isNone then (⟨seen, false, 0, blank⟩, c)
      else
        let (empty, c) := blockGap indent (c.rest.length + 1) 0 c.skipBreak
        blockLines folded indent bound ⟨seen, true, empty, blank⟩ c
    else (d, c)

def block? (folded : Bool) (outer : Int) (start : Cursor) : Option (String × Cursor) := do
  let (chomping, digit, c) ← blockHead? (start.take 1)
  let (_, c) ← c.skipToEnd? true
  if !endsLine c.peek then none
  else
    let headEnds := isBreak c.peek
    let c := c.skipBreak
    if c.peek = some '\t' then none
    else
      let (indent, empty, c) := match digit with
        | some digit =>
          let indent := (max outer 0).toNat + digit
          (indent, blockGap indent (c.rest.length + 1) 0 c)
        | none =>
          let (widest, empty, c) := blockStart (c.rest.length + 1) 0 0 c
          (max (max widest (outer + 1).toNat) (if 0 < outer then 1 else 0), empty, c)
      if c.peek.isNone then
        let kept := List.replicate (if chomping = .keep then max 1 empty else 1) '\n'
        return (if chomping = .strip || !headEnds then "" else String.ofList kept, c)
      else if c.column < indent && outer < (c.column : Int) then none
      else
        let (d, c) := blockLines folded indent (c.rest.length + 1) ⟨[], false, empty, false⟩ c
        let ended := if d.ended then ['\n'] else []
        let atEnd := if c.peek.isNone && max indent 1 ≤ c.column then ['\n'] else []
        let seen := match chomping with
          | .strip => d.seen
          | .clip => atEnd ++ ended ++ d.seen
          | .keep => List.replicate d.empty '\n' ++ atEnd ++ ended ++ d.seen
        return (String.ofList seen.reverse, c)

end Schemata.Yaml
