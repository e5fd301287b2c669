import Schemata.Number.Double
import Schemata.Text.Digits

/-!
The fewest decimal digits that read back as a given binary64 value, and how they are laid out.

A decimal reads back if it lies between the midpoints to the two neighbouring values (the midpoints
included when the significand is even). For one digit, two digits and so on, only the two decimals
around the value on that grid can lie there.
-/
namespace Schemata.Double

/-- `d₁.d₂… * 10 ^ scale`: the digits, with no zero at either end, and the place of the first one. -/
structure Decimal where
  digits : List Char
  scale : Int
deriving DecidableEq, Repr

def firstPlace (num den : Nat) : Int :=
  if den ≤ num then (Text.decimal (num / den)).length - 1
  else -(((List.range 400).find? fun k => den ≤ num * Nat.pow 10 k).getD 0 : Nat)

def tenRatio : Int → Nat × Nat
  | .ofNat k => (Nat.pow 10 k, 1)
  | .negSucc k => (1, Nat.pow 10 (k + 1))

/-- The decimal with unit `10 ^ unit` that reads back as `d` and is nearest to it, if there is one;
of two equally near ones the even. All is measured in quarters of the significand's last place. -/
def onGrid? (d : Double) (unit : Int) : Option Nat :=
  let quarter := rescaled 1 1 (2 - d.exponent)
  let ten := tenRatio unit
  let a := quarter.1 * ten.2
  let b := quarter.2 * ten.1
  let here := 4 * d.significand * a
  let below := (if d.significand = 4503599627370496 ∧ d.exponent ≠ -1074 then 4 * d.significand - 1
    else 4 * d.significand - 2) * a
  let above := (4 * d.significand + 2) * a
  let readsBack (c : Nat) : Bool :=
    if d.significand % 2 = 0 then below ≤ c * b && c * b ≤ above
    else below < c * b && c * b < above
  let low := here / b
  let toLow := here - low * b
  let toHigh := (low + 1) * b - here
  match readsBack low, readsBack (low + 1) with
  | true, true =>
    some (if toLow < toHigh ∨ toLow = toHigh ∧ low % 2 = 0 then low else low + 1)
  | true, false => some low
  | false, true => some (low + 1)
  | false, false => none

def shortest (d : Double) : Decimal :=
  let first := firstPlace d.ratio.1 d.ratio.2
  let found := (List.range 17).findSome? fun (n : Nat) =>
    (d.onGrid? (first - n)).map fun c => (c, first - (n : Int))
  match found with
  | none => ⟨[], 0⟩
  | some (c, unit) =>
    let ds := Text.decimal c
    ⟨(ds.reverse.dropWhile (· = '0')).reverse, unit + ds.length - 1⟩

structure Layout where
  /-- Places of the first digit that are written without an exponent. -/
  positional : Int → Bool
  /-- Whether a whole number ends in `.0` in positional writing. -/
  wholeMark : Bool

def Layout.write (layout : Layout) (d : Double) : List Char :=
  let sign := if d.negative then ['-'] else []
  let mark := if layout.wholeMark then ['.', '0'] else []
  if d.significand = 0 then sign ++ '0' :: mark
  else
    let ⟨ds, scale⟩ := d.shortest
    if layout.positional scale then
      if scale < 0 then
        sign ++ ['0', '.'] ++ List.replicate ((-scale).toNat - 1) '0' ++ ds
      else
        let whole := scale.toNat + 1
        if ds.length ≤ whole then sign ++ ds ++ List.replicate (whole - ds.length) '0' ++ mark
        else sign ++ ds.take whole ++ '.' :: ds.drop whole
    else
      let fraction := match ds.drop 1 with
        | [] => []
        | rest => '.' :: rest
      let e := (if scale < 0 then ['e', '-'] else ['e', '+']) ++ Text.decimal scale.natAbs
      sign ++ ds.take 1 ++ fraction ++ e

end Schemata.Double
