import Schemata.Instant
import Schemata.Toml.Text

/-!
Dates and times of TOML: a day, a time of day, or both with an offset from UTC if there is one. What is read
is given back as its text in normal form.

A date or time that stands for itself in a document is read by `ofWord?`. One that is given as a text, under
the reserved key, is read by `ofText?`, which is less strict about the ends of its ranges.
-/
namespace Schemata.Toml.Moment

def fixed? (width : Nat) (cs : List Char) : Option Nat :=
  if cs.length = width ∧ Text.isNumeral cs then some (Text.value cs) else none

def date? : List Char → Option (List Char)
  | [y₁, y₂, y₃, y₄, '-', m₁, m₂, '-', d₁, d₂] => do
    let year ← fixed? 4 [y₁, y₂, y₃, y₄]
    let month ← fixed? 2 [m₁, m₂]
    let day ← fixed? 2 [d₁, d₂]
    guard (1 ≤ month && month ≤ 12 && 1 ≤ day && day ≤ Date.daysIn year month)
    return [y₁, y₂, y₃, y₄, '-', m₁, m₂, '-', d₁, d₂]
  | _ => none

/-- A fraction of a second, to the nanosecond, without the zeros at its end. -/
def fraction? : List Char → Option (List Char)
  | [] => some []
  | '.' :: ds =>
    if Text.isNumeral ds then
      match ((ds.take 9).reverse.dropWhile (· = '0')).reverse with
      | [] => some []
      | kept => some ('.' :: kept)
    else none
  | _ => none

def time? : List Char → Option (List Char)
  | h₁ :: h₂ :: ':' :: m₁ :: m₂ :: ':' :: s₁ :: s₂ :: rest => do
    let hour ← fixed? 2 [h₁, h₂]
    let minute ← fixed? 2 [m₁, m₂]
    let second ← fixed? 2 [s₁, s₂]
    guard (hour < 24 && minute < 60 && second ≤ 60)
    return [h₁, h₂, ':', m₁, m₂, ':', s₁, s₂] ++ (← fraction? rest)
  | _ => none

def clock? (cs : List Char) : Option (List Char) :=
  match cs.span fun c => c ≠ 'Z' && c ≠ 'z' && c ≠ '+' && c ≠ '-' with
  | (time, []) => time? time
  | (time, ['Z']) | (time, ['z']) => (time? time).map (· ++ ['Z'])
  | (time, [sign, h₁, h₂, ':', m₁, m₂]) => do
    let hour ← fixed? 2 [h₁, h₂]
    let minute ← fixed? 2 [m₁, m₂]
    guard (hour < 24 && minute < 60)
    let sign := if hour = 0 && minute = 0 then '+' else sign
    return (← time? time) ++ [sign, h₁, h₂, ':', m₁, m₂]
  | _ => none

/-- A date, a time of day, or both with `T` or a blank between them. -/
def ofWord? (cs : List Char) : Option (List Char) :=
  match cs.take 10, cs.drop 10 with
  | day, [] => (date? day).or (time? cs)
  | day, mark :: clock =>
    if mark = 'T' ∨ mark = 't' ∨ mark = ' ' then do
      return (← date? day) ++ 'T' :: (← clock? clock)
    else time? cs

/-- The key of a table that stands for a date or time. -/
def reservedKey : String := "$__toml_private_datetime"

/-- A time of day in which the hour may be 24, and what follows it. -/
def lateTime? : Text.Reader (List Char)
  | h₁ :: h₂ :: ':' :: m₁ :: m₂ :: ':' :: s₁ :: s₂ :: rest => do
    let hour ← fixed? 2 [h₁, h₂]
    let minute ← fixed? 2 [m₁, m₂]
    let second ← fixed? 2 [s₁, s₂]
    guard (hour ≤ 24 && minute < 60 && second ≤ 60)
    let point := rest.takeWhile (· = '.')
    let ds := (rest.drop point.length).takeWhile Text.isDigit
    let fraction ← if point.isEmpty then some [] else if point.length = 1 then fraction? ('.' :: ds) else none
    return ([h₁, h₂, ':', m₁, m₂, ':', s₁, s₂] ++ fraction,
      if point.isEmpty then rest else rest.drop (1 + ds.length))
  | _ => none

def offset? : List Char → Option (List Char)
  | [] => some []
  | ['Z'] | ['z'] => some ['Z']
  | [sign, h₁, h₂, ':', m₁, m₂] => do
    let hours ← fixed? 2 [h₁, h₂]
    let minutes ← fixed? 2 [m₁, m₂]
    let total := hours * 60 + minutes
    guard ((sign = '+' || sign = '-') && total ≤ 1440)
    return (if total = 0 then '+' else sign) :: Text.padded 2 (total / 60) ++
      ':' :: Text.padded 2 (total % 60)
  | _ => none

def ofText? (s : String) : Option String := do
  let cs := s.toList
  let found ← match cs with
    | _ :: _ :: ':' :: _ => do
      let (time, []) ← lateTime? cs | none
      pure time
    | _ => do
      let day ← date? (cs.take 10)
      match cs.drop 10 with
      | [] => pure day
      | mark :: clock =>
        guard (mark = 'T' || mark = 't' || mark = ' ')
        let (time, rest) ← lateTime? clock
        pure (day ++ 'T' :: time ++ (← offset? rest))
  return String.ofList found

example : ofText? "1979-05-27 24:00:60.5000000009-00:99" = some "1979-05-27T24:00:60.5-01:39" := by
  decide +kernel

end Schemata.Toml.Moment
