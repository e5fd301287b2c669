/-!
Finite binary64 values, held exactly as a significand and a power of two, and their rounding.

All arithmetic is on natural numbers: a ratio is rounded to the nearest value, a half to the even
significand, and reading a decimal rounds once for its digits and once for its power of ten.
-/
namespace Schemata

/-- The value `± significand * 2 ^ exponent`, in its one normal form: the significand has at most 53 binary
digits, and it has all of them unless the exponent is the least one. -/
structure Double where
  negative : Bool
  significand : Nat
  exponent : Int
  normal : significand < 9007199254740992 ∧ -1074 ≤ exponent ∧ exponent ≤ 971 ∧
    (4503599627370496 ≤ significand ∨ exponent = -1074)
deriving DecidableEq, Repr

namespace Double

def roundHalfEven (num den : Nat) : Nat :=
  let low := num / den
  let twice := 2 * (num % den)
  if twice < den ∨ twice = den ∧ low % 2 = 0 then low else low + 1

def rescaled (num den : Nat) : Int → Nat × Nat
  | .ofNat e => (num, den * Nat.pow 2 e)
  | .negSucc e => (num * Nat.pow 2 (e + 1), den)

/-- The exponent of the greatest power of two that is at most `num / den`. -/
def floorLog2 (num den : Nat) : Int :=
  let e : Int := num.log2 - den.log2
  let r := rescaled num den e
  if r.2 ≤ r.1 then e else e - 1

def nearest? (negative : Bool) (num den : Nat) : Option Double :=
  let e := if num = 0 then -1074 else max (floorLog2 num den - 52) (-1074)
  let r := rescaled num den e
  let m := roundHalfEven r.1 r.2
  let carried : Nat × Int := if m = 9007199254740992 then (4503599627370496, e + 1) else (m, e)
  if h : carried.1 < 9007199254740992 ∧ -1074 ≤ carried.2 ∧ carried.2 ≤ 971 ∧
      (4503599627370496 ≤ carried.1 ∨ carried.2 = -1074) then
    some ⟨negative, carried.1, carried.2, h⟩
  else none

def ratio (d : Double) : Nat × Nat :=
  match d.exponent with
  | .ofNat e => (d.significand * Nat.pow 2 e, 1)
  | .negSucc e => (d.significand, Nat.pow 2 (e + 1))

def timesTen? (d : Double) (k : Nat) : Option Double := do
  let power ← nearest? false (Nat.pow 10 k) 1
  nearest? d.negative (d.ratio.1 * power.ratio.1) (d.ratio.2 * power.ratio.2)

def overTen? (d : Double) (k : Nat) : Option Double := do
  let power ← nearest? false (Nat.pow 10 k) 1
  nearest? d.negative (d.ratio.1 * power.ratio.2) (d.ratio.2 * power.ratio.1)

/-- Quotient by `10 ^ k`, a power beyond the greatest one in steps of `10 ^ 308`. -/
def shrink? (d : Double) (k : Nat) : Option Double :=
  if k ≤ 308 then d.overTen? k
  else if d.significand = 0 then some d
  else (d.overTen? 308).bind fun d => d.shrink? (k - 308)
termination_by k

/-- Product with `10 ^ k`; only zero may be taken beyond the greatest power. -/
def grow? (d : Double) (k : Nat) : Option Double :=
  if k ≤ 308 then d.timesTen? k
  else if d.significand = 0 then some d
  else none

/-- The value that the literal `± digits * 10 ^ e` is read as: the digits rounded first, then scaled.
There is none if the literal overflows. -/
def ofDecimal? (negative : Bool) (digits : Nat) (e : Int) : Option Double :=
  (nearest? negative digits 1).bind fun d =>
    match e with
    | .ofNat k => d.grow? k
    | .negSucc k => d.shrink? (k + 1)

def toInt? (d : Double) : Option Int :=
  let r := d.ratio
  if r.1 % r.2 = 0 then
    let n : Int := (r.1 / r.2 : Nat)
    some (if d.negative then -n else n)
  else none

def toNearestInt (d : Double) : Int :=
  let r := d.ratio
  let n : Int := ((2 * r.1 + r.2) / (2 * r.2) : Nat)
  if d.negative then -n else n

example : ((ofDecimal? false 45035996273704965 (-1)).bind toInt?) = some 4503599627370497 := by
  decide +kernel

end Schemata.Double
