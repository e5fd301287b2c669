/-!
Decimal numerals of natural numbers. Writing then reading gives the number back
(`value_decimal`), and a written numeral holds digits only (`decimal_digits`).
-/
namespace Schemata.Text

/-- The ten ASCII digits; no other script's digits count. -/
def isDigit (c : Char) : Bool := '0' ≤ c && c ≤ '9'

def digitValue (c : Char) : Nat := c.toNat - 48

def digitChar : Nat → Char
  | 0 => '0' | 1 => '1' | 2 => '2' | 3 => '3' | 4 => '4'
  | 5 => '5' | 6 => '6' | 7 => '7' | 8 => '8' | _ => '9'

/-- The numeral of `n`, without leading zeros. -/
def decimal (n : Nat) : List Char :=
  if n < 10 then [digitChar n] else decimal (n / 10) ++ [digitChar (n % 10)]
termination_by n

/-- The number that a row of digits denotes; the empty row denotes zero. -/
def value (ds : List Char) : Nat := ds.foldl (fun n c => 10 * n + digitValue c) 0

/-- A numeral: at least one digit and nothing else. -/
def isNumeral (s : List Char) : Bool := !s.isEmpty && s.all isDigit

/-- The numeral filled up with zeros on the left to at least `width` places. -/
def padded (width n : Nat) : List Char :=
  List.replicate (width - (decimal n).length) '0' ++ decimal n

def dropPlus : List Char → List Char
  | '+' :: rest => rest
  | s => s

/-- Reads a numeral, or a numeral after one plus sign, below `bound`. -/
def index? (bound : Nat) (s : List Char) : Option Nat :=
  let ds := dropPlus s
  if isNumeral ds && value ds < bound then some (value ds) else none

theorem digitValue_digitChar {d : Nat} (h : d < 10) : digitValue (digitChar d) = d := by
  match d, h with
  | 0, _ | 1, _ | 2, _ | 3, _ | 4, _ | 5, _ | 6, _ | 7, _ | 8, _ | 9, _ => rfl

theorem isDigit_digitChar (d : Nat) : isDigit (digitChar d) = true := by
  unfold digitChar
  split <;> rfl

theorem value_append (a b : List Char) :
    value (a ++ b) = b.foldl (fun n c => 10 * n + digitValue c) (value a) := by
  simp [value, List.foldl_append]

theorem value_decimal (n : Nat) : value (decimal n) = n := by
  induction n using decimal.induct with
  | case1 n h => rw [decimal, if_pos h]; simp [value, digitValue_digitChar h]
  | case2 n h ih =>
    rw [decimal, if_neg h, value_append, ih]
    simp [digitValue_digitChar (Nat.mod_lt n (by decide : 0 < 10))]
    omega

theorem decimal_digits (n : Nat) : ∀ c ∈ decimal n, isDigit c = true := by
  induction n using decimal.induct with
  | case1 n h => rw [decimal, if_pos h]; simp [isDigit_digitChar]
  | case2 n h ih =>
    rw [decimal, if_neg h]
    intro c hc
    rcases List.mem_append.1 hc with hc | hc
    · exact ih c hc
    · simp at hc; subst hc; exact isDigit_digitChar _

theorem decimal_ne_nil (n : Nat) : decimal n ≠ [] := by
  rw [decimal]; split <;> simp

theorem isNumeral_decimal (n : Nat) : isNumeral (decimal n) = true := by
  have : (decimal n).all isDigit = true := List.all_eq_true.2 (decimal_digits n)
  simp [isNumeral, this, decimal_ne_nil]

theorem dropPlus_decimal (n : Nat) : dropPlus (decimal n) = decimal n := by
  unfold dropPlus
  split
  · rename_i rest e
    have := decimal_digits n '+' (by simp [e])
    exact absurd this (by decide)
  · rfl

theorem index?_decimal {bound n : Nat} (h : n < bound) : index? bound (decimal n) = some n := by
  simp [index?, dropPlus_decimal, isNumeral_decimal, value_decimal, h]

end Schemata.Text
