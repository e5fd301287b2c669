import Schemata.Proofs.Version.Comparison

/-! What follows a numeral. Below the greatest 64-bit word it is the numeral of the next number, written without
zeros in front, and it comes later. The numeral of a number beyond the words is followed by the first identifier,
as if it were no numeral. -/
namespace Schemata.VersionId

open Text

/-- The identifier is the written form of a number: digits that denote it, and a zero in front only if it is
the whole text. -/
structure Writes (v : VersionId) (n : Nat) : Prop where
  numeral : v.Numeral
  number : v.number = n
  plain : v.text.toList.head? = some '0' → v.text = "0"

theorem writes_ofNat (n : Nat) : (ofNat n).Writes n where
  numeral := isNumeric_iff.mp (isNumeric_ofNat n)
  number := number_ofNat n
  plain zero := by
    obtain ⟨c, more, shape, -, nonzero⟩ := head?_decimal n
    have first : c = '0' := by simpa [ofNat, shape] using zero
    have none : n = 0 := by_contra fun positive => nonzero positive first
    rw [none]
    decide +kernel

theorem Writes.digits_eq {v : VersionId} {n : Nat} (writes : v.Writes n) :
    v.text.toList = if n = 0 then ['0'] else v.significant := by
  cases shape : v.text.toList with
  | nil => exact absurd (String.toList_eq_nil_iff.mp shape) writes.numeral.1
  | cons c rest =>
    by_cases zero : c = '0'
    · have whole : v.text = "0" := writes.plain (by rw [shape, zero]; rfl)
      have none : n = 0 := by
        rw [← writes.number, VersionId.number, whole]
        rfl
      rw [if_pos none, ← shape, whole]
      rfl
    · have all : v.significant = c :: rest := by
        rw [significant, shape, List.dropWhile_cons_of_neg (by simpa using zero)]
      have positive := pow_le_value_significant (isNumeric_iff.mpr writes.numeral) (n := 0) (by simp [all])
      rw [significant, value_dropWhile_zero] at positive
      have some : n ≠ 0 := by
        rw [← writes.number]
        exact Nat.pos_iff_ne_zero.mp positive
      rw [if_neg some, all]

theorem Writes.unique {v w : VersionId} {n : Nat} (first : v.Writes n) (second : w.Writes n) : v = w := by
  have same := significant_eq (isNumeric_iff.mpr first.numeral) (isNumeric_iff.mpr second.numeral)
    (first.number.trans second.number.symm)
  have digits : v.text.toList = w.text.toList := by rw [first.digits_eq, second.digits_eq, same]
  have texts : v.text = w.text := String.toList_inj.mp digits
  cases v
  cases w
  exact congrArg _ texts

/-- A numeral is followed by the written form of the next number, and comes before that, if and only if its number
is below the greatest 64-bit word. That word itself is left aside: nothing is said of what follows it. -/
theorem succeeds_iff {v : VersionId} (numeral : v.Numeral) (_other : v.number ≠ 18446744073709551615) :
    v.next.Writes (v.number + 1) ∧ order v v.next = .lt ↔ v.number < 18446744073709551615 := by
  constructor
  · rintro ⟨-, later⟩
    exact ((before_next_iff v).mp later).2
  · intro small
    have countable : v.Countable := ⟨isNumeric_iff.mpr numeral, small⟩
    refine ⟨?_, (before_next_iff v).mpr countable⟩
    rw [next_of_countable countable]
    exact writes_ofNat _

def samplePadded : VersionId := ⟨"0018446744073709551614"⟩

theorem samplePadded_succeeds : samplePadded.Numeral ∧ samplePadded.number = 18446744073709551614 ∧
    samplePadded.next = ⟨"18446744073709551615"⟩ ∧ samplePadded.next.Writes 18446744073709551615 ∧
    order samplePadded samplePadded.next = .lt := by
  have numeral : samplePadded.Numeral := isNumeric_iff.mp (by decide +kernel)
  have number : samplePadded.number = 18446744073709551614 := by decide +kernel
  obtain ⟨writes, later⟩ := (succeeds_iff numeral (by rw [number]; decide)).mpr (by rw [number]; decide)
  rw [number] at writes
  exact ⟨numeral, number, by decide +kernel, writes, later⟩

def sampleBeyond : VersionId := ⟨"18446744073709551616"⟩

theorem sampleBeyond_fails : sampleBeyond.Numeral ∧ sampleBeyond.number = 18446744073709551616 ∧
    sampleBeyond.next = first ∧ order sampleBeyond.next sampleBeyond = .lt ∧
    ¬ (sampleBeyond.next.Writes (sampleBeyond.number + 1) ∧ order sampleBeyond sampleBeyond.next = .lt) := by
  refine ⟨isNumeric_iff.mp (by decide +kernel), by decide +kernel, by decide +kernel, by decide +kernel, ?_⟩
  rintro ⟨-, later⟩
  exact absurd later (by decide +kernel)

end Schemata.VersionId
