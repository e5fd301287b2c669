import Schemata.Proofs.Text.Bytes
import Schemata.Proofs.Version.Order

/-! How version identifiers compare. Their order is total, and only identifiers of one text are level. Numerals
compare by the numbers that they denote, of any size and behind any zeros; all other texts come after them and
compare by their bytes. -/
namespace Schemata

open Std

namespace Text

theorem eq_of_value_eq {a b : List Char} (digitsA : ∀ c ∈ a, isDigit c = true) (digitsB : ∀ c ∈ b, isDigit c = true)
    (length : a.length = b.length) (same : value a = value b) : a = b := by
  induction a generalizing b with
  | nil => exact (List.eq_nil_of_length_eq_zero length.symm).symm
  | cons x rest ih =>
    cases b with
    | nil => cases length
    | cons y more =>
      obtain ⟨digitX, digitsRest⟩ := List.forall_mem_cons.mp digitsA
      obtain ⟨digitY, digitsMore⟩ := List.forall_mem_cons.mp digitsB
      have lengths : rest.length = more.length := Nat.succ.inj length
      have small : value rest < 10 ^ more.length := lengths ▸ value_lt digitsRest
      have first (d : Nat) {v : Nat} (small : v < 10 ^ more.length) :
          (d * 10 ^ more.length + v) / 10 ^ more.length = d := by
        rw [Nat.mul_comm, Nat.mul_add_div (Nat.pow_pos (by decide)), Nat.div_eq_of_lt small, Nat.add_zero]
      rw [value_cons, value_cons, lengths] at same
      have heads : digitValue x = digitValue y := by
        rw [← first (digitValue x) small, same, first _ (value_lt digitsMore)]
      have chars : x = y := by
        have boundX := digit_bounds digitX
        have boundY := digit_bounds digitY
        unfold digitValue at heads
        exact Char.toNat_inj.mp (by omega)
      have tails : value rest = value more := by
        rw [heads] at same
        exact Nat.add_left_cancel same
      rw [chars, ih digitsRest digitsMore lengths tails]

end Text

namespace VersionId

open Text

def Numeral (v : VersionId) : Prop := v.text ≠ "" ∧ ∀ c ∈ v.text.toList, '0' ≤ c ∧ c ≤ '9'

def bytes (v : VersionId) : List UInt8 := v.text.toUTF8.data.toList

theorem isNumeric_iff {v : VersionId} : v.isNumeric = true ↔ v.Numeral := by
  simp [isNumeric, isNumeral, isDigit, Numeral]

/-- Numerals of one number are the same behind their zeros: more digits would denote a greater number. -/
theorem significant_eq {a b : VersionId} (numericA : a.isNumeric = true) (numericB : b.isNumeric = true)
    (same : a.number = b.number) : a.significant = b.significant := by
  have digitsA := digits_of_significant numericA
  have digitsB := digits_of_significant numericB
  have values : value a.significant = value b.significant := by
    simpa [number, significant, value_dropWhile_zero] using same
  have length : a.significant.length = b.significant.length := by
    rcases Nat.lt_trichotomy a.significant.length b.significant.length with shorter | same | longer
    · have lower := pow_le_value_significant numericB shorter
      have upper := value_lt digitsA
      omega
    · exact same
    · have lower := pow_le_value_significant numericA longer
      have upper := value_lt digitsB
      omega
  exact eq_of_value_eq digitsA digitsB length values

theorem order_of_number_eq {a b : VersionId} (numericA : a.isNumeric = true) (numericB : b.isNumeric = true)
    (same : a.number = b.number) : order a b = Text.order a.text.toList b.text.toList := by
  have level : Text.order b.significant b.significant = .eq := ReflCmp.compare_self
  simp [order, numericA, numericB, significant_eq numericA numericB same, level]

/-- The order is total, antisymmetric and transitive, and level for identifiers of one text only. A numeral of a
smaller number comes first, whatever zeros the two begin with, and of two numerals of one number that with the
smaller text. Numerals come before all other identifiers, which compare by their bytes. -/
theorem order_laws :
    (∀ a b, (order a b).isLE ∨ (order b a).isLE) ∧
    (∀ a b, order b a = (order a b).swap) ∧
    (∀ a b, (order a b).isLE → (order b a).isLE → a = b) ∧
    (∀ a b c, (order a b).isLE → (order b c).isLE → (order a c).isLE) ∧
    (∀ a b, order a b = .eq ↔ a.text = b.text) ∧
    (∀ a b, a.Numeral → b.Numeral → a.number < b.number → order a b = .lt) ∧
    (∀ a b, a.Numeral → b.Numeral → a.number = b.number → order a b = compare a.bytes b.bytes) ∧
    (∀ a b, a.Numeral → ¬b.Numeral → order a b = .lt) ∧
    ∀ a b, ¬a.Numeral → ¬b.Numeral → order a b = compare a.bytes b.bytes := by
  have swap (a b : VersionId) : order b a = (order a b).swap := @OrientedCmp.eq_swap _ (@Key.order VersionId _) _ b a
  have level (a b : VersionId) : Key.order a b = .eq ↔ a = b := Key.order_eq_iff
  refine ⟨fun a b => ?_, swap, fun a b first second => ?_, fun a b c => ?_, fun a b => ?_,
    fun a b numeralA numeralB => ?_, fun a b numeralA numeralB same => ?_, fun a b numeral other => ?_,
    fun a b otherA otherB => ?_⟩
  · rw [swap a b]
    cases order a b <;> simp
  · exact (level a b).mp (OrientedCmp.isLE_antisymm first second)
  · exact @TransCmp.isLE_trans _ (@Key.order VersionId _) _ a b c
  · refine (level a b).trans ?_
    exact ⟨congrArg text, fun same => by cases a; cases b; exact congrArg _ same⟩
  · exact order_of_number_lt (isNumeric_iff.mpr numeralA) (isNumeric_iff.mpr numeralB)
  · rw [order_of_number_eq (isNumeric_iff.mpr numeralA) (isNumeric_iff.mpr numeralB) same]
    exact order_eq_compare_bytes a.text b.text
  · exact numeric_before_other (isNumeric_iff.mpr numeral) (Bool.eq_false_iff.mpr (mt isNumeric_iff.mp other))
  · rw [order, Bool.eq_false_iff.mpr (mt isNumeric_iff.mp otherA), Bool.eq_false_iff.mpr (mt isNumeric_iff.mp otherB)]
    exact order_eq_compare_bytes a.text b.text

/-- Zeros in front decide between texts of one number only, and the empty text is no numeral. -/
example : order ⟨"007"⟩ ⟨"8"⟩ = .lt ∧ order ⟨"007"⟩ ⟨"7"⟩ = .lt ∧ order ⟨"10"⟩ ⟨"9"⟩ = .gt ∧
    order ⟨"10"⟩ ⟨""⟩ = .lt := by decide +kernel

end VersionId

end Schemata
