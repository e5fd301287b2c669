import Schemata.Text.Digits
import Mathlib.Algebra.Group.Nat.Defs
import Mathlib.Data.List.TakeDrop
import Mathlib.Data.String.Basic

/-! Rows of digits: the numbers they denote, how long they are, and where a reader stops. -/
namespace Schemata.Text

theorem digit_bounds {c : Char} (digit : isDigit c = true) : 48 ≤ c.toNat ∧ c.toNat ≤ 57 := by
  simp only [isDigit, Bool.and_eq_true, decide_eq_true_eq, Char.le_def, UInt32.le_iff_toNat_le] at digit
  exact digit

/-- A digit is one byte. -/
theorem utf8ByteSize_digits {cs : List Char} (digits : ∀ c ∈ cs, isDigit c = true) :
    (String.ofList cs).utf8ByteSize = cs.length := by
  rw [String.utf8ByteSize_ofList]
  induction cs with
  | nil => rfl
  | cons c rest ih =>
    have one : c.utf8Size = 1 := by
      rw [Char.utf8Size_eq_one_iff, UInt32.le_iff_toNat_le]
      exact Nat.le_trans (digit_bounds (digits c List.mem_cons_self)).2 (by decide)
    have later := ih fun d inside => digits d (List.mem_cons_of_mem _ inside)
    rw [String.utf8Len_cons, one, later, List.length_cons]

theorem foldl_value (cs : List Char) (n : Nat) :
    cs.foldl (fun n c => 10 * n + digitValue c) n = n * 10 ^ cs.length + value cs := by
  induction cs generalizing n with
  | nil => simp [value]
  | cons d rest ih =>
    have tail : value (d :: rest) = (10 * 0 + digitValue d) * 10 ^ rest.length + value rest := ih _
    rw [List.foldl_cons, ih, tail, List.length_cons, Nat.pow_succ]
    simp only [Nat.add_mul, Nat.mul_assoc, Nat.mul_comm 10, Nat.zero_mul, Nat.zero_add]
    omega

theorem value_cons (c : Char) (cs : List Char) :
    value (c :: cs) = digitValue c * 10 ^ cs.length + value cs := by
  have shifted : value (c :: cs) = (10 * 0 + digitValue c) * 10 ^ cs.length + value cs :=
    foldl_value cs _
  rwa [Nat.mul_zero, Nat.zero_add] at shifted

theorem value_lt {cs : List Char} (digits : ∀ c ∈ cs, isDigit c = true) : value cs < 10 ^ cs.length := by
  induction cs with
  | nil => simp [value]
  | cons c rest ih =>
    have small := digit_bounds (digits c List.mem_cons_self)
    have later := ih fun d member => digits d (List.mem_cons_of_mem _ member)
    have top : digitValue c ≤ 9 := by unfold digitValue; omega
    have scaled := Nat.mul_le_mul_right (10 ^ rest.length) top
    rw [value_cons, List.length_cons, Nat.pow_succ]
    omega

theorem head?_decimal (n : Nat) : ∃ c more, decimal n = c :: more ∧ isDigit c = true ∧
    (n ≠ 0 → c ≠ '0') := by
  induction n using decimal.induct with
  | case1 n small =>
    rw [decimal, if_pos small]
    refine ⟨digitChar n, [], rfl, isDigit_digitChar n, fun positive zero => positive ?_⟩
    rw [← digitValue_digitChar small, zero]
    rfl
  | case2 n large ih =>
    obtain ⟨c, more, shape, digit, nonzero⟩ := ih
    rw [decimal, if_neg large, shape]
    exact ⟨c, more ++ [digitChar (n % 10)], rfl, digit, fun _ => nonzero (by omega)⟩

theorem padded_digits (width n : Nat) : ∀ c ∈ padded width n, isDigit c = true := by
  intro c inside
  rcases List.mem_append.mp inside with zero | digit
  · rw [(List.mem_replicate.mp zero).2]
    rfl
  · exact decimal_digits n c digit

theorem padded_ne_nil (width n : Nat) : padded width n ≠ [] := by
  simp [padded, decimal_ne_nil]

theorem value_padded (width n : Nat) : value (padded width n) = n := by
  have zeros : ∀ k, value (List.replicate k '0' ++ decimal n) = n := by
    intro k
    induction k with
    | zero => simp [value_decimal]
    | succ k ih => simp [List.replicate_succ, value_cons, digitValue, ih]
  exact zeros _

theorem length_decimal_le {n k : Nat} (positive : 0 < k) (small : n < 10 ^ k) : (decimal n).length ≤ k := by
  induction n using decimal.induct generalizing k with
  | case1 n digit =>
    rw [decimal, if_pos digit]
    exact positive
  | case2 n large ih =>
    obtain ⟨k, rfl⟩ := Nat.exists_eq_succ_of_ne_zero (Nat.pos_iff_ne_zero.mp positive)
    rw [Nat.pow_succ] at small
    have longer : 0 < k := by
      rcases Nat.eq_zero_or_pos k with rfl | more
      · omega
      · exact more
    have shorter := ih longer (by omega)
    rw [decimal, if_neg large, List.length_append, List.length_singleton]
    omega

theorem length_padded {width n : Nat} (positive : 0 < width) (small : n < 10 ^ width) :
    (padded width n).length = width := by
  have fits := length_decimal_le positive small
  simp only [padded, List.length_append, List.length_replicate]
  omega

/-- What may follow a row of digits. -/
def Ends (rest : List Char) : Prop := ∀ c, rest.head? = some c → isDigit c = false

theorem ends_nil : Ends [] := fun _ head => by cases head

theorem ends_cons {c : Char} (other : isDigit c = false) (cs : List Char) : Ends (c :: cs) := by
  intro d head
  cases head
  exact other

theorem takeWhile_digits {ds rest : List Char} (digits : ∀ c ∈ ds, isDigit c = true) (ends : Ends rest) :
    (ds ++ rest).takeWhile isDigit = ds := by
  rw [List.takeWhile_append_of_pos digits]
  cases rest with
  | nil => simp
  | cons c more => simp [ends c rfl]

theorem span_digits {ds rest : List Char} (digits : ∀ c ∈ ds, isDigit c = true) (ends : Ends rest) :
    (ds ++ rest).span isDigit = (ds, rest) := by
  rw [List.span_eq_takeWhile_dropWhile, takeWhile_digits digits ends, List.dropWhile_append_of_pos digits]
  cases rest with
  | nil => simp
  | cons c more => simp [ends c rfl]

end Schemata.Text
