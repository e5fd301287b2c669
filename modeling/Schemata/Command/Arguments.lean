import Schemata.Text.Split

/-!
Command line arguments: flags that take a value, written `-f value`, `-fvalue`, `-f=value`, `--flag value`
or `--flag=value`, mixed with operands. After `--` everything is an operand.

Arguments are read from the left, and the first one that cannot be there or asks for help decides.
-/
namespace Schemata.Command

inductive Kind where
  | text
  | path
deriving DecidableEq, Repr

/-- A path is never empty. -/
def Kind.admits : Kind → String → Bool
  | text, _ => true
  | path, s => s ≠ ""

structure Flag where
  letter : Char
  word : String
  /-- Whether the flag may be given more than once. -/
  repeats : Bool := false
  kind : Kind := .text

inductive Word where
  | divider
  | help
  | flag (f : Flag) (value : Option String)
  /-- It looks like a flag, but there is no such flag. -/
  | unknown
  | plain

namespace Word

def ofFlag (f? : Option Flag) (value : Option (List Char)) : Word :=
  match f? with
  | some f => flag f (value.map String.ofList)
  | none => unknown

def long (flags : List Flag) (name : List Char) (value : Option (List Char)) : Word :=
  if name = "help".toList && value.isNone then help
  else ofFlag (flags.find? fun flag => flag.word.toList = name) value

def short (flags : List Flag) (letter : Char) (value : Option (List Char)) : Word :=
  if letter = 'h' then help else ofFlag (flags.find? fun flag => flag.letter = letter) value

def of (flags : List Flag) (argument : String) : Word :=
  match argument.toList with
  | ['-', '-'] => divider
  | '-' :: '-' :: rest =>
    match Text.splitFirst? '=' rest with
    | some (name, value) => long flags name (some value)
    | none => long flags rest none
  | ['-', letter] => short flags letter none
  | '-' :: letter :: '=' :: value => short flags letter (some value)
  | '-' :: letter :: value => short flags letter (some value)
  | _ => plain

end Word

inductive Refusal where
  | help
  | misused
deriving DecidableEq, Repr

structure Arguments where
  given : List (Char × String)
  operands : List String

namespace Arguments

def empty : Arguments := ⟨[], []⟩

def value? (a : Arguments) (letter : Char) : Option String := a.given.lookup letter

def values (a : Arguments) (letter : Char) : List String :=
  (a.given.filter (·.1 = letter)).map (·.2)

/-- Gives a flag a value. A flag that was given before must be one that repeats. -/
def add (flag : Flag) (value : String) (a : Arguments) : Except Refusal Arguments :=
  if (!flag.repeats && (a.value? flag.letter).isSome) || !flag.kind.admits value then .error .misused
  else .ok { a with given := a.given ++ [(flag.letter, value)] }

/-- Adds an operand, if one more is wanted and it is of the right kind. -/
def addOperand (kinds : List Kind) (operand : String) (a : Arguments) : Except Refusal Arguments :=
  match kinds[a.operands.length]? with
  | some kind =>
    if kind.admits operand then .ok { a with operands := a.operands ++ [operand] } else .error .misused
  | none => .error .misused

/-- Reads flags, and operands of the given kinds. A `waiting` flag takes its value from the next argument,
which must not look like a flag. -/
def read (flags : List Flag) (kinds : List Kind) :
    (waiting : Option Flag) → List String → Arguments → Except Refusal Arguments
  | some _, [], _ => .error .misused
  | none, [], a => .ok a
  | some flag, argument :: rest, a =>
    match Word.of flags argument, a.add flag argument with
    | .plain, .ok a => read flags kinds none rest a
    | .plain, .error e => .error e
    | _, _ => .error .misused
  | none, argument :: rest, a =>
    match Word.of flags argument with
    | .divider => rest.foldlM (fun a operand => a.addOperand kinds operand) a
    | .help => .error .help
    | .flag flag none => read flags kinds (some flag) rest a
    | .flag flag (some value) =>
      match a.add flag value with
      | .ok a => read flags kinds none rest a
      | .error e => .error e
    | .unknown => .error .misused
    | .plain =>
      match a.addOperand kinds argument with
      | .ok a => read flags kinds none rest a
      | .error e => .error e

def ofList (flags : List Flag) (kinds : List Kind) (arguments : List String) :
    Except Refusal Arguments :=
  read flags kinds none arguments empty

/-- The flags before a command, the command, and what follows it. A value that the last of the flags cannot
take is only a fault once the command has none, so what the flags make is handed on. -/
def readLead (flags : List Flag) : (waiting : Option Flag) → List String → Arguments →
    Except Refusal (Except Refusal Arguments × String × List String)
  | _, [], _ => .error .misused
  | some flag, argument :: rest, a =>
    match Word.of flags argument, a.add flag argument, rest with
    | .plain, .ok a, _ => readLead flags none rest a
    | .plain, .error e, command :: rest =>
      match Word.of flags command with
      | .plain => .ok (.error e, command, rest)
      | _ => .error e
    | _, _, _ => .error .misused
  | none, argument :: rest, a =>
    match Word.of flags argument with
    | .divider => .error .misused
    | .help => .error .help
    | .flag flag none => readLead flags (some flag) rest a
    | .flag flag (some value) =>
      match a.add flag value with
      | .ok a => readLead flags none rest a
      | .error e => .error e
    | .unknown => .error .misused
    | .plain => .ok (.ok a, argument, rest)

def upToCommand (flags : List Flag) (arguments : List String) :
    Except Refusal (Except Refusal Arguments × String × List String) :=
  readLead flags none arguments empty

/-- What follows the command `help`: nothing, or the one command that help is wanted on. -/
def helpOn (commands : List String) : List String → Refusal
  | [] => .help
  | [command] => if command ∈ commands then .help else .misused
  | _ => .misused

end Arguments

end Schemata.Command
