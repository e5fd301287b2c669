import Schemata.Proofs.Order
import Schemata.Version.Id

/-! The order of version identifiers is total, and numerals stand in the order of their numbers. The next
identifier comes later after a numeral below the greatest 64-bit word, and after nothing else. -/
namespace Schemata.VersionId

open Std Text

/-- Numerals come first. -/
def rank (v : VersionId) : Nat := if v.isNumeric then 0 else 1

/-- The digits that count in the order; other texts have none. -/
def leadingFree (v : VersionId) : List Char := if v.isNumeric then v.significant else []

/-- The order as four comparisons, of which the first that is not level counts. -/
abbrev lexicographic : VersionId → VersionId → Ordering :=
  compareLex (orderOn compare rank) (compareLex (orderOn compare fun v => v.leadingFree.length)
    (compareLex (orderOn Text.order leadingFree) (orderOn Text.order fun v => v.text.toList)))

theorem order_eq_lexicographic (a b : VersionId) : order a b = lexicographic a b := by
  have below : compare 0 1 = Ordering.lt := rfl
  have above : compare 1 0 = Ordering.gt := rfl
  have level : Text.order [] [] = .eq := rfl
  cases numericA : a.isNumeric <;> cases numericB : b.isNumeric
  · simp [order, lexicographic, compareLex, orderOn, rank, leadingFree, numericA, numericB, level]
  · simp [order, lexicographic, compareLex, orderOn, rank, leadingFree, numericA, numericB, above]
  · simp [order, lexicographic, compareLex, orderOn, rank, leadingFree, numericA, numericB, below]
  · rcases Nat.lt_trichotomy a.significant.length b.significant.length with less | same | greater
    · simp [order, lexicographic, compareLex, orderOn, rank, leadingFree, numericA, numericB, less,
        Nat.compare_eq_lt.mpr less]
    · simp [order, lexicographic, compareLex, orderOn, rank, leadingFree, numericA, numericB, same]
    · simp [order, lexicographic, compareLex, orderOn, rank, leadingFree, numericA, numericB, greater,
        Nat.lt_asymm greater, Nat.compare_eq_gt.mpr greater]

instance : LawfulKey VersionId where
  eq_swap {a b} := by
    change order a b = (order b a).swap
    rw [order_eq_lexicographic, order_eq_lexicographic]
    exact @OrientedCmp.eq_swap _ lexicographic _ a b
  isLE_trans {a b c} := by
    change (order a b).isLE → (order b c).isLE → (order a c).isLE
    rw [order_eq_lexicographic, order_eq_lexicographic, order_eq_lexicographic]
    exact @TransCmp.isLE_trans _ lexicographic _ a b c
  compare_self {a} := by
    change order a a = .eq
    rw [order_eq_lexicographic]
    exact @ReflCmp.compare_self _ lexicographic _ a
  eq_of_compare {a b} level := by
    change order a b = .eq at level
    rw [order_eq_lexicographic] at level
    have texts := (Ordering.then_eq_eq.mp (Ordering.then_eq_eq.mp (Ordering.then_eq_eq.mp level).2).2).2
    have same : a.text = b.text := String.toList_inj.mp (eq_of_orderOn_eq texts)
    cases a
    cases b
    exact congrArg _ same

/-- The number that a numeral denotes. -/
def number (v : VersionId) : Nat := value v.text.toList

theorem value_dropWhile_zero (cs : List Char) : value (cs.dropWhile (· = '0')) = value cs := by
  induction cs with
  | nil => rfl
  | cons c rest ih =>
    by_cases zero : c = '0'
    · subst zero
      rw [List.dropWhile_cons_of_pos (by simp), ih, value_cons]
      simp [digitValue]
    · rw [List.dropWhile_cons_of_neg (by simpa using zero)]

theorem digits_of_isNumeric {v : VersionId} (numeric : v.isNumeric = true) :
    ∀ c ∈ v.text.toList, isDigit c = true := by
  simp only [isNumeric, isNumeral, Bool.and_eq_true, List.all_eq_true] at numeric
  exact numeric.2

theorem digits_of_significant {v : VersionId} (numeric : v.isNumeric = true) :
    ∀ c ∈ v.significant, isDigit c = true :=
  fun c member => digits_of_isNumeric numeric c ((List.dropWhile_sublist _).subset member)

/-- Without leading zeros, more digits than another row has make a number that the other cannot reach. -/
theorem pow_le_value_significant {v : VersionId} (numeric : v.isNumeric = true) {n : Nat}
    (long : n < v.significant.length) : 10 ^ n ≤ value v.significant := by
  have digits := digits_of_significant numeric
  cases shape : v.significant with
  | nil => simp [shape] at long
  | cons c rest =>
    have nonzero : c ≠ '0' := by
      have head := List.head?_dropWhile_not (p := fun c : Char => decide (c = '0')) v.text.toList
      simp only [significant] at shape
      simpa [shape] using head
    have bounds := digit_bounds (digits c (by simp [shape]))
    have positive : 1 ≤ digitValue c := by
      have apart : c.toNat ≠ 48 := fun same => nonzero (Char.toNat_inj.mp same)
      unfold digitValue
      omega
    have small : n ≤ rest.length := by simpa [shape, Nat.lt_succ_iff] using long
    have scaled := Nat.mul_le_mul_right (10 ^ rest.length) positive
    have powers := Nat.pow_le_pow_right (show 0 < 10 by decide) small
    rw [value_cons]
    omega

theorem order_of_number_lt {a b : VersionId} (numericA : a.isNumeric = true)
    (numericB : b.isNumeric = true) (less : a.number < b.number) : Key.order a b = .lt := by
  have digitsA := digits_of_significant numericA
  have digitsB := digits_of_significant numericB
  have values : value a.significant < value b.significant := by
    simpa [number, significant, value_dropWhile_zero] using less
  change order a b = .lt
  rcases Nat.lt_trichotomy a.significant.length b.significant.length with shorter | same | longer
  · simp [order, numericA, numericB, shorter]
  · simp [order, numericA, numericB, same, order_of_value_lt digitsA digitsB same values]
  · have lower := pow_le_value_significant numericA longer
    have upper := value_lt digitsB
    omega

theorem numeric_before_other {a b : VersionId} (numeric : a.isNumeric = true)
    (other : b.isNumeric = false) : Key.order a b = .lt := by
  change order a b = .lt
  simp [order, numeric, other]

/-- The identifier that is the numeral of a number. -/
def ofNat (n : Nat) : VersionId := ⟨String.ofList (decimal n)⟩

@[simp] theorem isNumeric_ofNat (n : Nat) : (ofNat n).isNumeric = true := by
  simp [isNumeric, ofNat, isNumeral_decimal]

@[simp] theorem number_ofNat (n : Nat) : (ofNat n).number = n := by
  simp [number, ofNat, value_decimal]

theorem order_ofNat {a b : Nat} (less : a < b) : Key.order (ofNat a) (ofNat b) = .lt :=
  order_of_number_lt (by simp) (by simp) (by simpa using less)

theorem first_eq : first = ofNat 1 := by decide +kernel

/-- A numeral below the greatest 64-bit word. -/
def Countable (v : VersionId) : Prop := v.isNumeric = true ∧ v.number < 18446744073709551615

instance (v : VersionId) : Decidable v.Countable := inferInstanceAs (Decidable (_ ∧ _))

theorem next_of_countable {v : VersionId} (countable : v.Countable) : v.next = ofNat (v.number + 1) := by
  obtain ⟨numeric, small⟩ := countable
  unfold number at small
  have word : value v.text.toList < 18446744073709551616 := by omega
  rw [next, numeric, Bool.true_and, if_pos (decide_eq_true word), Nat.mod_eq_of_lt (by omega)]
  rfl

theorem next_of_not_word {v : VersionId} (other : v.isNumeric = true → 18446744073709551616 ≤ v.number) :
    v.next = first := by
  unfold next
  rw [if_neg]
  intro both
  rw [Bool.and_eq_true, decide_eq_true_eq] at both
  exact absurd (other both.1) (Nat.not_le.mpr both.2)

theorem next_of_greatest {v : VersionId} (numeric : v.isNumeric = true)
    (greatest : v.number = 18446744073709551615) : v.next = ofNat 0 := by
  unfold number at greatest
  rw [next, numeric, greatest]
  rfl

/-- After all that cannot be counted on, the count starts again. -/
theorem next_of_not_countable {v : VersionId} (uncountable : ¬ v.Countable) : ∃ n ≤ 1, v.next = ofNat n := by
  by_cases greatest : v.isNumeric = true ∧ v.number = 18446744073709551615
  · exact ⟨0, by decide, next_of_greatest greatest.1 greatest.2⟩
  · refine ⟨1, by decide, (next_of_not_word fun numeric => ?_).trans first_eq⟩
    have large : ¬ v.number < 18446744073709551615 := fun small => uncountable ⟨numeric, small⟩
    have apart : v.number ≠ 18446744073709551615 := fun same => greatest ⟨numeric, same⟩
    omega

theorem next_eq_ofNat (v : VersionId) : ∃ n < 18446744073709551616, v.next = ofNat n := by
  by_cases countable : v.Countable
  · exact ⟨v.number + 1, Nat.succ_lt_succ countable.2, next_of_countable countable⟩
  · obtain ⟨n, small, number⟩ := next_of_not_countable countable
    exact ⟨n, by omega, number⟩

theorem text_ofNat_ne_empty (n : Nat) : (ofNat n).text ≠ "" := by
  intro none
  have chars := congrArg String.toList none
  rw [ofNat, String.toList_ofList] at chars
  exact decimal_ne_nil n chars

/-- The next identifier comes after exactly those that can be counted on. -/
theorem before_next_iff (v : VersionId) : Key.order v v.next = .lt ↔ v.Countable := by
  constructor
  · intro less
    apply Classical.byContradiction
    intro uncountable
    obtain ⟨n, small, number⟩ := next_of_not_countable uncountable
    rw [number] at less
    have back : Key.order (ofNat n) v = .lt := by
      by_cases numeric : v.isNumeric = true
      · have large : ¬ v.number < 18446744073709551615 := fun small => uncountable ⟨numeric, small⟩
        exact order_of_number_lt (by simp) numeric (by rw [number_ofNat]; omega)
      · exact numeric_before_other (by simp) (by simpa using numeric)
    have loop := Key.lt_trans less back
    rw [Key.order_self] at loop
    cases loop
  · intro countable
    rw [next_of_countable countable]
    exact order_of_number_lt countable.1 (by simp) (by simp)

end Schemata.VersionId
