import Schemata.Settings.Value
import Schemata.Toml.Moment

/-!
The one-word values of TOML: truth values, whole numbers in four bases, binary64 numbers, and dates and
times. A date or time counts as its text in normal form.
-/
namespace Schemata.Toml

/-- A row of digits with single underscores between them, the underscores left out. -/
def digits? (ok : Char → Bool) : List Char → Option (List Char)
  | [c] => if ok c then some [c] else none
  | c :: '_' :: rest => if ok c then (digits? ok rest).map (c :: ·) else none
  | c :: rest => if ok c then (digits? ok rest).map (c :: ·) else none
  | [] => none

def splitSign : List Char → Bool × List Char
  | '-' :: rest => (true, rest)
  | '+' :: rest => (false, rest)
  | cs => (false, cs)

def wholeDigits? (cs : List Char) : Option (List Char) :=
  match digits? Text.isDigit cs with
  | some ['0'] => some ['0']
  | some ('0' :: _) => none
  | ds => ds

def hasDigit (base : Nat) (c : Char) : Bool :=
  match Text.hexValue? c with
  | some d => d < base
  | none => false

def based? (base : Nat) (cs : List Char) : Option Int :=
  (digits? (hasDigit base) cs).map fun ds =>
    (ds.foldl (fun n c => base * n + (Text.hexValue? c).getD 0) 0 : Nat)

def integer? (cs : List Char) : Option Int := do
  let n ← match cs with
    | '0' :: 'x' :: rest => based? 16 rest
    | '0' :: 'o' :: rest => based? 8 rest
    | '0' :: 'b' :: rest => based? 2 rest
    | cs => do
      let (negative, rest) := splitSign cs
      let n : Int := Text.value (← wholeDigits? rest)
      pure (if negative then -n else n)
  guard (-9223372036854775808 ≤ n && n < 9223372036854775808)
  return n

/-- A number with a fraction, an exponent or both, or one of `inf` and `nan`. One above the range of the
format is refused. -/
def real? (cs : List Char) : Option Extended := do
  let (negative, rest) := splitSign cs
  if rest = ['i', 'n', 'f'] then return .infinite negative
  if rest = ['n', 'a', 'n'] then return .undefined
  let (mantissa, mark) := rest.span fun c => c ≠ 'e' && c ≠ 'E'
  let exponent : Int ← match mark with
    | [] => pure 0
    | _ :: e => do
      let (negative, ds) := splitSign e
      let n : Int := Text.value (← digits? Text.isDigit ds)
      pure (if negative then -n else n)
  let (whole, point) := mantissa.span (· ≠ '.')
  let whole ← wholeDigits? whole
  let fraction ← match point with
    | [] => if mark.isEmpty then none else pure []
    | _ :: ds => digits? Text.isDigit ds
  let x := Extended.ofScientific negative (Text.value (whole ++ fraction)) (exponent - fraction.length)
  guard (x ≠ .infinite false)
  return x

def scalar (word : List Char) : Option Setting :=
  if word = "true".toList then some (.boolean true)
  else if word = "false".toList then some (.boolean false)
  else ((Moment.ofWord? word).map fun s => .text (String.ofList s))
    |>.or ((integer? word).map .integer)
    |>.or ((real? word).map .real)

def isWordChar (c : Char) : Bool :=
  c.isAlphanum || c = '_' || c = '+' || c = '-' || c = '.' || c = ':'

/-- A value of one word. Of a day and a time of day the two words are one. -/
def word? : Text.Reader Setting := fun cs =>
  let first := cs.span isWordChar
  let two := match first.2 with
    | ' ' :: rest =>
      let second := rest.span isWordChar
      if (Moment.date? first.1).isSome && (Moment.clock? second.1).isSome then
        some (first.1 ++ ' ' :: second.1, second.2)
      else none
    | _ => none
  let whole := two.getD first
  (scalar whole.1).map fun v => (v, whole.2)

example : (scalar "1_000".toList).bind Setting.toText? = some "1000" := by decide +kernel

example : (scalar "1979-05-27t07:32:00.50z".toList).bind Setting.toText? =
    some "1979-05-27T07:32:00.5Z" := by decide +kernel

end Schemata.Toml
