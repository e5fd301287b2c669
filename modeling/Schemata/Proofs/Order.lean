import Schemata.Checksum
import Schemata.Proofs.Text.Digits
import Schemata.Text.Order

/-! Key orders are total orders in which only equal keys are level, and the order of numerals of one length
is that of their numbers. -/
namespace Schemata

open Std

/-- Keys are in a total order, and only a key itself is level with it. -/
class LawfulKey (κ : Type) [Key κ] : Prop extends TransCmp (@Key.order κ _), LawfulEqCmp (@Key.order κ _)

/-- The order of values by what a function makes of them. -/
def orderOn (cmp : β → β → Ordering) (f : α → β) (a b : α) : Ordering := cmp (f a) (f b)

instance (cmp : β → β → Ordering) (f : α → β) [TransCmp cmp] : TransCmp (orderOn cmp f) where
  eq_swap {a b} := @OrientedCmp.eq_swap _ cmp _ (f a) (f b)
  isLE_trans {a b c} := @TransCmp.isLE_trans _ cmp _ (f a) (f b) (f c)

theorem eq_of_orderOn_eq {cmp : β → β → Ordering} {f : α → β} [LawfulEqCmp cmp] {a b : α}
    (level : orderOn cmp f a b = .eq) : f a = f b := LawfulEqCmp.eq_of_compare level

instance : LawfulEqCmp (orderOn compare Char.toNat) where
  eq_of_compare level := Char.toNat_inj.mp (eq_of_orderOn_eq level)

theorem Text.order_eq_compareLex (a b : List Char) :
    Text.order a b = List.compareLex (orderOn compare Char.toNat) a b := by
  induction a generalizing b with
  | nil => cases b <;> rfl
  | cons x rest ih =>
    cases b with
    | nil => rfl
    | cons y more =>
      rw [List.compareLex_cons_cons, Text.order, ih more]
      rcases Nat.lt_trichotomy x.toNat y.toNat with less | same | greater
      · simp [orderOn, less, Nat.compare_eq_lt.mpr less]
      · simp [orderOn, same]
      · simp [orderOn, greater, Nat.lt_asymm greater, Nat.compare_eq_gt.mpr greater]

instance : TransCmp Text.order := by
  have same : Text.order = List.compareLex (orderOn compare Char.toNat) := by
    funext a b
    exact Text.order_eq_compareLex a b
  rw [same]
  infer_instance

instance : LawfulEqCmp Text.order := by
  have same : Text.order = List.compareLex (orderOn compare Char.toNat) := by
    funext a b
    exact Text.order_eq_compareLex a b
  rw [same]
  infer_instance

instance : LawfulKey String where
  eq_swap := @OrientedCmp.eq_swap _ (orderOn Text.order String.toList) _
  isLE_trans := @TransCmp.isLE_trans _ (orderOn Text.order String.toList) _
  compare_self := @ReflCmp.compare_self _ (orderOn Text.order String.toList) _
  eq_of_compare level := String.toList_inj.mp (@eq_of_orderOn_eq _ _ Text.order String.toList _ _ _ level)

instance : LawfulKey Handle where
  eq_swap := @OrientedCmp.eq_swap _
    (compareLex (orderOn Key.order Handle.name) (orderOn Key.order fun h => h.checksum.hex)) _
  isLE_trans := @TransCmp.isLE_trans _
    (compareLex (orderOn Key.order Handle.name) (orderOn Key.order fun h => h.checksum.hex)) _
  compare_self := @ReflCmp.compare_self _
    (compareLex (orderOn Key.order Handle.name) (orderOn Key.order fun h => h.checksum.hex)) _
  eq_of_compare := by
    rintro ⟨n, ⟨x⟩⟩ ⟨n', ⟨x'⟩⟩ level
    obtain ⟨names, digests⟩ := Ordering.then_eq_eq.mp level
    have sameName : n = n' := LawfulEqCmp.eq_of_compare names
    have sameDigest : x = x' := LawfulEqCmp.eq_of_compare digests
    rw [sameName, sameDigest]

section
variable {κ : Type} [Key κ] [LawfulKey κ] {a b c : κ}

@[simp] theorem Key.order_self : Key.order a a = .eq := ReflCmp.compare_self

theorem Key.order_eq_iff : Key.order a b = .eq ↔ a = b := LawfulEqCmp.compare_eq_iff_eq

theorem Key.lt_trans (first : Key.order a b = .lt) (second : Key.order b c = .lt) :
    Key.order a c = .lt := TransCmp.lt_trans first second

theorem Key.gt_iff_lt : Key.order a b = .gt ↔ Key.order b a = .lt := OrientedCmp.gt_iff_lt

instance : Std.Asymm fun a b : κ => Key.order a b = .lt where
  asymm a b below above := by
    rw [← Key.gt_iff_lt, below] at above
    cases above

theorem Key.ne_of_lt (less : Key.order a b = .lt) : a ≠ b := by
  rintro rfl
  rw [Key.order_self] at less
  cases less

end

namespace Text

/-- Of two rows of digits of one length, that of the smaller number comes first. -/
theorem order_of_value_lt {a b : List Char} (digitsA : ∀ c ∈ a, isDigit c = true)
    (digitsB : ∀ c ∈ b, isDigit c = true) (same : a.length = b.length) (less : value a < value b) :
    order a b = .lt := by
  induction a generalizing b with
  | nil =>
    cases b with
    | nil => exact absurd less (Nat.lt_irrefl _)
    | cons y more => simp at same
  | cons x rest ih =>
    cases b with
    | nil => simp at same
    | cons y more =>
      have lengths : rest.length = more.length := by simpa using same
      have boundX := digit_bounds (digitsA x List.mem_cons_self)
      have boundY := digit_bounds (digitsB y List.mem_cons_self)
      have digitsA' : ∀ c ∈ rest, isDigit c = true := fun c member => digitsA c (List.mem_cons_of_mem _ member)
      have digitsB' : ∀ c ∈ more, isDigit c = true := fun c member => digitsB c (List.mem_cons_of_mem _ member)
      rw [value_cons, value_cons, lengths] at less
      rcases Nat.lt_trichotomy x.toNat y.toNat with first | equal | first
      · simp [order, first]
      · have rests : value rest < value more := by
          have : digitValue x = digitValue y := by simp [digitValue, equal]
          rw [this] at less
          omega
        simp [order, equal, ih digitsA' digitsB' lengths rests]
      · have high : digitValue y + 1 ≤ digitValue x := by unfold digitValue; omega
        have scaled := Nat.mul_le_mul_right (10 ^ more.length) high
        have rests := value_lt digitsB'
        rw [Nat.add_mul] at scaled
        omega

end Text

end Schemata
