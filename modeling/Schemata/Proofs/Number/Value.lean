import Mathlib.Data.Rat.Cast.Order
import Mathlib.Tactic.FieldSimp
import Mathlib.Tactic.Ring
import Schemata.Json.Basic

/-! The exact values of numbers. A binary64 value is the rational number that its significand and exponent
denote, and it is taken for a whole number exactly if it equals one. -/
namespace Schemata

namespace Double

def sign (d : Double) : ℤ := if d.negative then -1 else 1

def value (d : Double) : ℚ := d.sign * (d.significand * 2 ^ d.exponent)

theorem sign_mul_sign (d : Double) : d.sign * d.sign = 1 := by
  unfold sign
  split <;> rfl

theorem ratio_pos (d : Double) : 0 < d.ratio.2 := by
  unfold ratio
  split
  · exact Nat.one_pos
  · exact Nat.two_pow_pos _

theorem ratio_eq (d : Double) : (d.ratio.1 : ℚ) / d.ratio.2 = d.significand * 2 ^ d.exponent := by
  unfold ratio
  split
  · rename_i e exponent
    rw [exponent]
    simp
  · rename_i e exponent
    rw [exponent]
    simp [zpow_negSucc, div_eq_mul_inv]

theorem value_eq (d : Double) : d.value = d.sign * ((d.ratio.1 : ℚ) / d.ratio.2) := by
  rw [value, ratio_eq]

theorem toInt?_eq_some_iff {d : Double} {n : ℤ} : d.toInt? = some n ↔ d.value = n := by
  have positive : (d.ratio.2 : ℚ) ≠ 0 := by exact_mod_cast d.ratio_pos.ne'
  by_cases whole : d.ratio.2 ∣ d.ratio.1
  · obtain ⟨k, multiple⟩ := whole
    have taken : d.toInt? = some (d.sign * k) := by
      simp [toInt?, multiple, sign, Nat.mul_div_cancel_left k d.ratio_pos]
    have value : d.value = (d.sign * k : ℤ) := by
      rw [value_eq, multiple]
      push_cast
      field_simp
    rw [taken, value, Option.some.injEq, Int.cast_inj]
  · have none : d.toInt? = none := by
      simp [toInt?, ← Nat.dvd_iff_mod_eq_zero, whole]
    rw [none]
    refine ⟨nofun, fun value => absurd ?_ whole⟩
    have undone : (d.sign : ℚ) * d.sign = 1 := by exact_mod_cast d.sign_mul_sign
    have multiple : (d.ratio.1 : ℚ) = d.ratio.2 * (d.sign * n) := by
      calc (d.ratio.1 : ℚ) = d.sign * d.sign * (d.ratio.2 * (d.ratio.1 / d.ratio.2)) := by
            rw [undone, one_mul, mul_div_cancel₀ _ positive]
        _ = d.ratio.2 * (d.sign * (d.sign * (d.ratio.1 / d.ratio.2))) := by ring
        _ = d.ratio.2 * (d.sign * n) := by rw [← d.value_eq, value]
    exact Int.natCast_dvd_natCast.mp ⟨d.sign * n, by exact_mod_cast multiple⟩

end Double

def Number.value : Number → ℚ
  | .whole n => n.value
  | .double d => d.value

end Schemata
