import Schemata.Text.Letters
import Schemata.Yaml.Scalar
import Schemata.Yaml.Token

/-!
The tokens of a YAML text. Indentation is turned into tokens that open and close blocks, and a word that a
colon follows into a key.

Whether a word is a key shows only at its colon. So each place where a simple key may stand is noted with its
number among the tokens, and the colon puts the tokens of the key there.
-/
namespace Schemata.Yaml

structure Candidate where
  possible : Bool
  /-- Whether only a key can stand there. -/
  required : Bool
  /-- The number of tokens before it. -/
  number : Nat
  index : Nat
  line : Nat
  column : Nat

def Candidate.none : Candidate := ⟨false, false, 0, 0, 0, 0⟩

structure Level where
  indent : Int
  /-- Whether a token ends the block that was opened here. -/
  isBlock : Bool

structure Lexer where
  cursor : Cursor
  /-- The tokens so far, the last one first. -/
  tokens : List Token
  /-- The column of the last token, if it is an anchor or a tag. -/
  propertyColumn : Option Nat
  keyAllowed : Bool
  candidate : Candidate
  /-- Those of the collections around, the innermost first. -/
  outer : List Candidate
  indent : Int
  levels : List Level
  /-- The index at which a colon may stand directly before a value. -/
  adjacentAt : Nat
  /-- Whether a mark has opened a mapping in brackets since the last pair without braces was closed. -/
  inBraces : Bool
  /-- For each list in brackets, the innermost first, whether it is inside a pair without braces. -/
  pairs : List Bool

namespace Lexer

def start (cs : List Char) : Lexer where
  cursor := .start cs
  tokens := []
  propertyColumn := .none
  keyAllowed := true
  candidate := .none
  outer := []
  indent := -1
  levels := []
  adjacentAt := 0
  inBraces := false
  pairs := []

def inFlow (l : Lexer) : Bool := !l.outer.isEmpty

def push (token : Token) (l : Lexer) : Lexer :=
  { l with tokens := token :: l.tokens, propertyColumn := .none }

def insert (number : Nat) (token : Token) (l : Lexer) : Lexer :=
  let place := l.tokens.length - number
  { l with
    tokens := l.tokens.take place ++ token :: l.tokens.drop place
    propertyColumn := if place = 0 then .none else l.propertyColumn }

def goTo (cursor : Cursor) (l : Lexer) : Lexer := { l with cursor }

def allowKey (allowed : Bool) (l : Lexer) : Lexer := { l with keyAllowed := allowed }

/-- Goes back to the indentation of a column; each block that is left ends. -/
def unroll (column : Int) : List Level → Lexer → Lexer
  | [], l => { l with levels := [] }
  | level :: rest, l =>
    if column < l.indent then
      let l := { l with indent := level.indent }
      unroll column rest (if level.isBlock then l.push .blockEnd else l)
    else { l with levels := level :: rest }

def unrollTo (column : Int) (l : Lexer) : Lexer := if l.inFlow then l else l.unroll column l.levels

/-- Leaves the indentations that no block was opened for. -/
def unrollPrepared : List Level → Lexer → Lexer
  | [], l => { l with levels := [] }
  | level :: rest, l =>
    if level.isBlock then { l with levels := level :: rest }
    else unrollPrepared rest { l with indent := level.indent }

/-- Opens a block at a column that is further in, before the token with a number or at the end. An
indentation that was only prepared gives way to it. -/
def roll (column : Nat) (number : Option Nat) (token : Token) (l : Lexer) : Lexer :=
  if l.inFlow then l
  else
    let l := match l.levels with
      | level :: rest =>
        if l.indent ≤ (column : Int) && !level.isBlock then
          { l with indent := level.indent, levels := rest }
        else l
      | [] => l
    if l.indent < (column : Int) then
      let l := { l with levels := ⟨l.indent, true⟩ :: l.levels, indent := column }
      match number with
      | some number => l.insert number token
      | .none => l.push token
    else l

/-- Prepares an indentation by one column, so that what follows has to be further in than its block. -/
def prepare (l : Lexer) : Lexer :=
  match l.levels with
  | ⟨_, true⟩ :: _ =>
    if l.inFlow then l
    else { l with levels := ⟨l.indent, false⟩ :: l.levels, indent := l.indent + 1 }
  | _ => l

def noteKey (l : Lexer) : Lexer :=
  if l.keyAllowed then
    let c := l.cursor
    let required :=
      !l.inFlow && l.indent = (c.column : Int) && l.levels.head?.any fun level => level.isBlock
    { l with candidate := ⟨true, required, l.tokens.length, c.index, c.line, c.column⟩ }
  else l

/-- Gives up the noted key, unless only a key can be there. -/
def dropKey? (l : Lexer) : Option Lexer :=
  if l.candidate.possible && l.candidate.required then .none
  else some { l with candidate := { l.candidate with possible := false } }

/-- Outside of brackets a key stands on one line and is at most 1024 characters before its colon. -/
def dropStaleKey? (l : Lexer) : Option Lexer :=
  let k := l.candidate
  if !l.inFlow && (k.line < l.cursor.line || k.index + 1024 < l.cursor.index) then l.dropKey? else some l

def startWord (l : Lexer) : Lexer := l.noteKey.allowKey false

def finish? (l : Lexer) : Option Lexer :=
  if (l.candidate :: l.outer).any fun k => k.possible && k.required then .none
  else some (l.unrollTo (-1))

def directive? (l : Lexer) : Option Lexer := do
  let l ← (l.unrollTo (-1)).dropKey?
  let (token, c) ← Yaml.directive? l.cursor
  return ((l.allowKey false).push token).goTo c

/-- One of the marks between documents. After the closing one nothing more is on the line. -/
def documentMark? (token : Token) (l : Lexer) : Option Lexer := do
  let l ← (l.unrollTo (-1)).dropKey?
  let l := ((l.allowKey false).push token).goTo (l.cursor.take 3)
  if token = .documentEnd then
    let (_, c) ← l.cursor.skipToEnd? true
    if endsLine c.peek then return l.goTo c else .none
  else return l

def flowLimit : Nat := 255

def openFlow? (token : Token) (l : Lexer) : Option Lexer := do
  let l := l.noteKey.prepare
  if flowLimit ≤ l.outer.length then .none
  else
    let l := { l with outer := l.candidate :: l.outer, candidate := .none, keyAllowed := true }
    let l := if token = .flowMapStart then { l with inBraces := true }
      else { l with pairs := false :: l.pairs }
    let (_, c) ← (l.cursor.take 1).skipToEnd? true
    return (l.push token).goTo c

/-- Closes the pair without braces that a list in brackets may be inside of. -/
def closePair (l : Lexer) : Lexer :=
  match l.pairs with
  | true :: rest => { l with pairs := false :: rest, inBraces := false }.push .flowMapEnd
  | _ => l

def closeFlow? (token : Token) (l : Lexer) : Option Lexer := do
  let l ← l.dropKey?
  let l := match l.outer with
    | k :: rest => { l with candidate := k, outer := rest }
    | [] => l
  let l := l.allowKey false
  let l := if token = .flowListEnd then
      let l := l.closePair
      { l with pairs := l.pairs.drop 1 }
    else l
  let (_, c) ← (l.cursor.take 1).skipToEnd? true
  let l := if l.inFlow then { l with adjacentAt := c.index } else l
  return (l.push token).goTo c

def flowItem? (l : Lexer) : Option Lexer := do
  let l ← l.dropKey?
  let l := (l.allowKey true).closePair
  let (_, c) ← (l.cursor.take 1).skipToEnd? true
  return (l.push .flowItem).goTo c

def blockItem? (l : Lexer) : Option Lexer := do
  let column := l.cursor.column
  if l.inFlow || !l.keyAllowed then .none
  else if column = 0 && l.propertyColumn = some 0 && -1 < l.indent then .none
  else
    let l := l.roll column .none .blockListStart
    let (found, c) ← (l.cursor.take 1).skipToEnd? true
    if found.tabs && c.peek = some '-' && endsWord (c.ahead 1) then .none
    else
      let l := if isBreak c.peek || isFlowMark c.peek then l.prepare else l
      let l ← l.dropKey?
      return ((l.allowKey true).push .blockItem).goTo c

def skipSpaces : (bound : Nat) → (newLine : Bool) → Cursor → Bool × Cursor
  | 0, newLine, c => (newLine, c)
  | bound + 1, newLine, c =>
    if c.peek = some ' ' then skipSpaces bound newLine (c.skip 1)
    else if isBreak c.peek then skipSpaces bound true c.skipBreak
    else if c.peek = some '#' then skipSpaces bound newLine c.skipLine
    else (newLine, c)

/-- The question mark of a key that may be anything. A space or a line end follows it, and no tab. -/
def openKey? (l : Lexer) : Option Lexer := do
  if !l.inFlow && !l.keyAllowed then .none
  else
    let l := if l.inFlow then { l with inBraces := true }
      else l.roll l.cursor.column .none .blockMapStart
    let l ← l.dropKey?
    let l := l.allowKey (!l.inFlow)
    let c := l.cursor.take 1
    if c.peek = some ' ' || isBreak c.peek then
      let (newLine, c) := skipSpaces (c.rest.length + 1) false c
      if c.peek = some '\t' then .none
      else return ((l.allowKey (l.keyAllowed || (newLine && !l.inFlow))).push .key).goTo c
    else .none

/-- The colon of a value, after a simple key that was noted, or after any other key. -/
def value? (l : Lexer) : Option Lexer := do
  let startsPair := !l.pairs.isEmpty && !l.inBraces
  let l := if startsPair then { l with pairs := true :: l.pairs.drop 1 } else l
  let k := l.candidate
  let column := l.cursor.column
  let line := l.cursor.line
  let c := l.cursor.take 1
  let c ← if c.peek = some '\t' then do
      let (found, c) ← c.skipToEnd? true
      let next := c.peek
      if !found.spaces && (next = some '-' || next.any Text.isAlphanumeric) then .none else some c
    else some c
  let l := l.goTo c
  if k.possible then
    if startsPair && k.line < line then .none
    else
      let l := l.insert k.number .key
      let l := if startsPair then l.insert k.number .flowMapStart else l
      let l := (l.roll k.column (some k.number) .blockMapStart).prepare
      let l := { l with candidate := { k with possible := false } }
      return (l.allowKey false).push .value
  else
    let l := if startsPair then l.push .flowMapStart else l
    if !l.inFlow && !l.keyAllowed then .none
    else
      let l := (l.roll column .none .blockMapStart).prepare
      return (l.allowKey (!l.inFlow)).push .value

/-- A colon inside of brackets. A collection cannot follow it directly, unless a closed key is before it. -/
def flowValue? (l : Lexer) : Option Lexer :=
  let next := l.cursor.ahead 1
  if l.adjacentAt ≠ l.cursor.index && (next = some '[' || next = some '\x7b') then .none
  else l.value?

def property? (read : Cursor → Option (Token × Cursor)) (l : Lexer) : Option Lexer := do
  let column := l.cursor.column
  let (token, c) ← read l.cursor
  return { (l.startWord.push token).goTo c with propertyColumn := some column }

def alias? (l : Lexer) : Option Lexer := do
  let (name, c) ← anchorName? l.cursor
  return (l.startWord.push (.alias name)).goTo c

def quoted? (l : Lexer) : Option Lexer := do
  let l := l.startWord
  let (text, c) ← Yaml.quoted? l.inFlow l.indent l.cursor
  let block := if l.levels.isEmpty then .none else some l.indent
  let (passed, c) ← c.skipToToken? block (c.rest.length + 1) false
  let l := l.allowKey (l.keyAllowed || (passed && !l.inFlow))
  return { (l.push (.scalar false text)).goTo c with adjacentAt := c.index }

def plain? (l : Lexer) : Option Lexer := do
  let l := l.startWord
  let l := l.unrollPrepared l.levels
  let (text, c) ← Yaml.plain? l.inFlow l.indent l.cursor
  return ((l.allowKey (l.keyAllowed || c.indenting)).push (.scalar true text)).goTo c

def block? (folded : Bool) (l : Lexer) : Option Lexer := do
  let l := l.noteKey.allowKey true
  let l := l.unrollPrepared l.levels
  let (text, c) ← Yaml.block? folded l.indent l.cursor
  return (l.push (.scalar false text)).goTo c

def token? (l : Lexer) : Option Lexer :=
  let c := l.cursor
  let next := c.ahead 1
  match c.peek with
  | some '[' => l.openFlow? .flowListStart
  | some '\x7b' => l.openFlow? .flowMapStart
  | some ']' => l.closeFlow? .flowListEnd
  | some '\x7d' => l.closeFlow? .flowMapEnd
  | some ',' => l.flowItem?
  | some '-' => if endsWord next then l.blockItem? else l.plain?
  | some '?' => if endsWord next then l.openKey? else l.plain?
  | some ':' =>
    if endsWord next then l.value?
    else if l.inFlow && (isFlowMark next || l.adjacentAt = c.index) then l.flowValue?
    else l.plain?
  | some '*' => l.alias?
  | some '&' => l.property? fun c => (anchorName? c).map fun found => (.anchor found.1, found.2)
  | some '!' => l.property? (tag? l.inFlow)
  | some '|' => if l.inFlow then l.plain? else l.block? false
  | some '>' => if l.inFlow then l.plain? else l.block? true
  | some '\'' => l.quoted?
  | some '"' => l.quoted?
  | some x => if x = '%' || x = '@' || x.toNat = 0x60 then .none else l.plain?
  | .none => some l

/-- Goes to the next token and reads it; at the end of the text, `none` inside the answer. -/
def step? (l : Lexer) : Option (Lexer × Bool) := do
  let block := if l.levels.isEmpty then .none else some l.indent
  let (passed, c) ← l.cursor.skipToToken? block (l.cursor.rest.length + 1) false
  let l := (l.allowKey (l.keyAllowed || (passed && !l.inFlow))).goTo c
  let l ← l.dropStaleKey?
  let l := l.unrollTo c.column
  if c.peek.isNone then return (← l.finish?, true)
  else if c.column = 0 && c.peek = some '%' then return (← l.directive?, false)
  else if c.isAtMark '-' then return (← l.documentMark? .documentStart, false)
  else if c.isAtMark '.' then return (← l.documentMark? .documentEnd, false)
  else if (c.column : Int) < l.indent then .none
  else return (← l.token?, false)

/-- All tokens, at most `bound` of them, the last one first. -/
def run? : (bound : Nat) → Lexer → Option (List Token)
  | 0, _ => .none
  | bound + 1, l =>
    match l.step? with
    | .none => .none
    | some (l, true) => some l.tokens
    | some (l, false) => run? bound l

end Lexer

def tokens? (s : String) : Option (List Token) :=
  ((Lexer.start s.toList).run? (s.length + 2)).map List.reverse

end Schemata.Yaml
