import Schemata.Number.Shortest

/-!
Binary64 values with the two infinities and the value that is no number, as free-form numerals name them:
an optional sign, digits with at most one point among or beside them, an optional exponent, or one of the
words `inf`, `infinity` and `nan` in any case. A numeral stands for the value nearest to it.
-/
namespace Schemata

inductive Extended where
  | finite (d : Double)
  | infinite (negative : Bool)
  | undefined
deriving DecidableEq, Repr

namespace Extended

def nearest (negative : Bool) (num den : Nat) : Extended :=
  match Double.nearest? negative num den with
  | some d => finite d
  | none => infinite negative

/-- The value nearest to `± digits * 10 ^ e`. A numeral whose first place is far beyond the range of the
format is decided without its power of ten. -/
def ofScientific (negative : Bool) (digits : Nat) (e : Int) : Extended :=
  let places : Int := (Text.decimal digits).length + e
  if digits = 0 ∨ places < -400 then nearest negative 0 1
  else if 400 < places then infinite negative
  else
    match e with
    | .ofNat k => nearest negative (digits * Nat.pow 10 k) 1
    | .negSucc k => nearest negative digits (Nat.pow 10 (k + 1))

def exponent? : List Char → Option Int
  | [] => some 0
  | mark :: rest =>
    if mark = 'e' ∨ mark = 'E' then
      match rest with
      | '-' :: ds => if Text.isNumeral ds then some (-(Text.value ds : Int)) else none
      | ds => if Text.isNumeral (Text.dropPlus ds) then some (Text.value (Text.dropPlus ds)) else none
    else none

def magnitude? (negative : Bool) (cs : List Char) : Option Extended :=
  let whole := cs.span Text.isDigit
  let fraction := match whole.2 with
    | '.' :: rest => rest.span Text.isDigit
    | rest => ([], rest)
  if whole.1.isEmpty && fraction.1.isEmpty then none
  else (exponent? fraction.2).map fun e =>
    ofScientific negative (Text.value (whole.1 ++ fraction.1)) (e - fraction.1.length)

def unsigned? (negative : Bool) (cs : List Char) : Option Extended :=
  let word := String.ofList (cs.map Char.toLower)
  if word = "inf" ∨ word = "infinity" then some (infinite negative)
  else if word = "nan" then some undefined
  else magnitude? negative cs

def ofText? (s : String) : Option Extended :=
  match s.toList with
  | '-' :: rest => unsigned? true rest
  | '+' :: rest => unsigned? false rest
  | cs => unsigned? false cs

/-- Every digit is written out, and a whole number has no point. -/
def layout : Double.Layout := ⟨fun _ => true, false⟩

def text : Extended → String
  | finite d => String.ofList (layout.write d)
  | infinite true => "-inf"
  | infinite false => "inf"
  | undefined => "NaN"

/-- The nearest number that a 64-bit word holds; no number counts as zero. -/
def toWord : Extended → UInt64
  | finite d => .ofNat (min d.toNearestInt.toNat 18446744073709551615)
  | infinite negative => if negative then 0 else .ofNat 18446744073709551615
  | undefined => 0

example : (ofText? "1.50e3").map text = some "1500" := by decide +kernel

example : (ofText? "-.5").map text = some "-0.5" := by decide +kernel

example : (ofText? "1e-999999999").map text = some "0" := by decide +kernel

end Extended

end Schemata
