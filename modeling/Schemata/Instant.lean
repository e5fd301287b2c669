import Schemata.Text.Digits
import Schemata.Text.Space

/-!
Points in time on the UTC calendar, to the nanosecond, and their text in the form `2001-02-03T04:05:06.5Z`.

A text is read with any offset from UTC. It is written in UTC with as many groups of three fraction digits
as it takes to lose nothing. The sixtieth second of a leap minute is kept as a second with more than a
thousand million nanoseconds.
-/
namespace Schemata

structure Date where
  year : Int
  month : Nat
  day : Nat
deriving DecidableEq, Repr

/-- Seconds since the start of 1970 and nanoseconds within the second, at most one leap second more. -/
structure Instant where
  seconds : Int
  nanos : Nat
deriving DecidableEq, Repr

namespace Date

def isLeap (year : Int) : Bool := year % 4 = 0 && (year % 100 ≠ 0 || year % 400 = 0)

def daysIn (year : Int) (month : Nat) : Nat :=
  match month with
  | 2 => if isLeap year then 29 else 28
  | 4 | 6 | 9 | 11 => 30
  | _ => 31

/-- Days from 1970-01-01. Years start in March here, so that the leap day is the last. -/
def toDays (d : Date) : Int :=
  let year := if d.month ≤ 2 then d.year - 1 else d.year
  let era := year.fdiv 400
  let yearOfEra := year - era * 400
  let month : Int := if d.month ≤ 2 then d.month + 9 else d.month - 3
  let dayOfYear := (153 * month + 2) / 5 + d.day - 1
  era * 146097 + (yearOfEra * 365 + yearOfEra / 4 - yearOfEra / 100 + dayOfYear) - 719468

def ofDays (days : Int) : Date :=
  let z := days + 719468
  let era := z.fdiv 146097
  let dayOfEra := z - era * 146097
  let yearOfEra := (dayOfEra - dayOfEra / 1460 + dayOfEra / 36524 - dayOfEra / 146096) / 365
  let dayOfYear := dayOfEra - (365 * yearOfEra + yearOfEra / 4 - yearOfEra / 100)
  let shifted := (5 * dayOfYear + 2) / 153
  let day := dayOfYear - (153 * shifted + 2) / 5 + 1
  let month := if shifted < 10 then shifted + 3 else shifted - 9
  let year := yearOfEra + era * 400
  ⟨if month ≤ 2 then year + 1 else year, month.toNat, day.toNat⟩

end Date

namespace Instant

def takeNumber? (width : Nat) (cs : List Char) : Option (Nat × List Char) :=
  match (cs.take width).takeWhile Text.isDigit with
  | [] => none
  | ds => some (Text.value ds, cs.drop ds.length)

def takeChar? (c : Char) : List Char → Option (List Char)
  | x :: rest => if x = c then some rest else none
  | [] => none

/-- A year: up to four digits, or any number of them after a sign. -/
def takeYear? (cs : List Char) : Option (Int × List Char) :=
  match Text.skipSpace cs with
  | '-' :: rest => (takeNumber? rest.length rest).map fun (n, rest) => (-n, rest)
  | '+' :: rest => (takeNumber? rest.length rest).map fun (n, rest) => (n, rest)
  | cs => (takeNumber? 4 cs).map fun (n, rest) => (n, rest)

def takePair? (cs : List Char) : Option (Nat × List Char) := takeNumber? 2 (Text.skipSpace cs)

/-- The fraction of a second after a point, cut after nine digits. -/
def takeNanos? : List Char → Option (Nat × List Char)
  | '.' :: cs =>
    match cs.takeWhile Text.isDigit with
    | [] => none
    | ds =>
      let kept := ds.take 9
      some (Text.value kept * Nat.pow 10 (9 - kept.length), cs.drop ds.length)
  | cs => some (0, cs)

def takeTwoDigits? : List Char → Option (Nat × List Char)
  | a :: b :: rest =>
    if Text.isDigit a && Text.isDigit b then some (Text.value [a, b], rest) else none
  | _ => none

def skipOffsetMark (cs : List Char) : List Char := cs.dropWhile fun c => c = ':' || Text.isSpace c

def takeOffset? (cs : List Char) : Option (Int × List Char) :=
  match cs with
  | 'Z' :: rest => some (0, rest)
  | 'z' :: rest => some (0, rest)
  | u :: t :: c :: rest =>
    if (u = 'U' || u = 'u') && (t = 'T' || t = 't') && (c = 'C' || c = 'c') then some (0, rest)
    else signed u (t :: c :: rest)
  | s :: rest => signed s rest
  | [] => none
where
  signed (s : Char) (cs : List Char) : Option (Int × List Char) := do
    let sign : Int ← if s = '+' then some 1 else if s = '-' || s = '\u2212' then some (-1) else none
    let (hours, cs) ← takeTwoDigits? cs
    let (minutes, cs) ← takeTwoDigits? (skipOffsetMark cs)
    guard (minutes < 60)
    return (sign * (hours * 3600 + minutes * 60), cs)

/-- Whether a count of seconds falls on a day of the calendar, which has the years from -262143 to 262142. -/
def inCalendar (seconds : Int) : Bool :=
  (Date.mk (-262143) 1 1).toDays * 86400 ≤ seconds && seconds < (Date.mk 262143 1 1).toDays * 86400

/-- Reads a date, a time of day and an offset. The day has to be on the calendar both as written and in
UTC. -/
def ofText? (text : String) : Option Instant := do
  let (year, cs) ← takeYear? text.toList
  let cs ← takeChar? '-' (Text.skipSpace cs)
  let (month, cs) ← takePair? cs
  let cs ← takeChar? '-' (Text.skipSpace cs)
  let (day, cs) ← takePair? cs
  let cs ← match cs with
    | c :: rest => if c = 'T' || c = 't' || c = ' ' then some rest else none
    | [] => none
  let (hour, cs) ← takePair? cs
  let cs ← takeChar? ':' (Text.skipSpace cs)
  let (minute, cs) ← takePair? cs
  let cs ← takeChar? ':' (Text.skipSpace cs)
  let (second, cs) ← takePair? cs
  let (nanos, cs) ← takeNanos? cs
  let (offset, cs) ← takeOffset? (Text.skipSpace cs)
  guard ((Text.skipSpace cs).isEmpty)
  guard (-262143 ≤ year && year ≤ 262142 && 1 ≤ month && month ≤ 12)
  guard (1 ≤ day && day ≤ Date.daysIn year month)
  guard (hour < 24 && minute < 60 && second ≤ 60 && offset.natAbs < 86400)
  let leap := if second = 60 then 1000000000 else 0
  let clock := hour * 3600 + minute * 60 + (if second = 60 then 59 else second)
  let seconds := (Date.mk year month day).toDays * 86400 + clock - offset
  guard (inCalendar seconds)
  return ⟨seconds, nanos + leap⟩

/-- Four digits; a sign before a year outside of 0 to 9999. -/
def yearText (year : Int) : List Char :=
  if 0 ≤ year ∧ year ≤ 9999 then Text.padded 4 year.toNat
  else (if year < 0 then '-' else '+') :: Text.padded 4 year.natAbs

def date (t : Instant) : Date := Date.ofDays (t.seconds.fdiv 86400)

def stem (t : Instant) (mark : Char) : List Char :=
  let d := t.date
  let clock := (t.seconds.fmod 86400).toNat
  let second := clock % 60 + t.nanos / 1000000000
  yearText d.year ++ '-' :: Text.padded 2 d.month ++ '-' :: Text.padded 2 d.day ++
    mark :: Text.padded 2 (clock / 3600) ++ ':' :: Text.padded 2 (clock / 60 % 60) ++
    ':' :: Text.padded 2 second

/-- No digits, or three, six or nine after a point: the fewest that lose nothing. -/
def fraction (nanos : Nat) : List Char :=
  if nanos = 0 then []
  else if nanos % 1000000 = 0 then '.' :: Text.padded 3 (nanos / 1000000)
  else if nanos % 1000 = 0 then '.' :: Text.padded 6 (nanos / 1000)
  else '.' :: Text.padded 9 nanos

def text (t : Instant) : String :=
  String.ofList (t.stem 'T' ++ fraction (t.nanos % 1000000000) ++ ['Z'])

def minuteText (t : Instant) : String := String.ofList (t.stem ' ')

def later (a b : Instant) : Instant :=
  if a.seconds < b.seconds ∨ a.seconds = b.seconds ∧ a.nanos < b.nanos then b else a

example : (ofText? "2000-01-01T00:00:00.25+01:00").map text = some "1999-12-31T23:00:00.250Z" := by
  decide +kernel

end Schemata.Instant
