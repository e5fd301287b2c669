import Mathlib.Data.List.Basic
import Schemata.Proofs.Order

/-! The order of texts by code point is the order of their bytes. The first byte of a character tells how many
follow, and it is the greater the more there are; of two characters with equally many bytes the one with the smaller
number has the smaller byte where they differ first. -/
namespace Schemata.Text

open Std String

/-- The bytes of the character with a number: its digits to base 64, behind marks. -/
inductive Encodes : Nat → List UInt8 → Prop where
  | one {n : Nat} {w : UInt8} : n < 128 → w.toNat = n → Encodes n [w]
  | two {n p o : Nat} {w x : UInt8} : 128 ≤ n → n < 2048 → n = 64 * p + o → o < 64 →
      w.toNat = 192 + p → x.toNat = 128 + o → Encodes n [w, x]
  | three {n q p o : Nat} {w x y : UInt8} : 2048 ≤ n → n < 65536 → n = 4096 * q + 64 * p + o → p < 64 → o < 64 →
      w.toNat = 224 + q → x.toNat = 128 + p → y.toNat = 128 + o → Encodes n [w, x, y]
  | four {n r q p o : Nat} {w x y z : UInt8} : 65536 ≤ n → n = 262144 * r + 4096 * q + 64 * p + o →
      q < 64 → p < 64 → o < 64 → w.toNat = 240 + r → x.toNat = 128 + q → y.toNat = 128 + p → z.toNat = 128 + o →
      Encodes n [w, x, y, z]

theorem encodes_utf8EncodeChar (c : Char) : Encodes c.toNat (utf8EncodeChar c) := by
  have bound : c.toNat < 1114112 := by
    rcases c.valid with low | ⟨-, high⟩ <;> simp only [Char.toNat, UInt32.toNat] at * <;> omega
  have byte {n m : Nat} (small : n < 256) (same : n = m) : (UInt8.ofNat n).toNat = m :=
    (UInt8.toNat_ofNat_of_lt' small).trans same
  rw [utf8EncodeChar.eq_1, Char.toNat_val]
  generalize c.toNat = n at bound ⊢
  split_ifs
  · exact .one (by omega) (byte (by omega) rfl)
  · exact .two (p := n / 64) (o := n % 64) (by omega) (by omega) (by omega) (by omega) (byte (by omega) (by omega))
      (byte (by omega) (by omega))
  · exact .three (q := n / 4096) (p := n / 64 % 64) (o := n % 64) (by omega) (by omega) (by omega) (by omega) (by omega)
      (byte (by omega) (by omega)) (byte (by omega) (by omega)) (byte (by omega) (by omega))
  · exact .four (r := n / 262144) (q := n / 4096 % 64) (p := n / 64 % 64) (o := n % 64) (by omega) (by omega) (by omega)
      (by omega) (by omega) (byte (by omega) (by omega)) (byte (by omega) (by omega)) (byte (by omega) (by omega))
      (byte (by omega) (by omega))

theorem Encodes.lt {m n : Nat} {u v : List UInt8} (first : Encodes m u) (second : Encodes n v) (less : m < n)
    (s t : List UInt8) : u ++ s < v ++ t := by
  cases first <;> cases second <;>
    simp only [List.cons_append, List.nil_append, List.cons_lt_cons_iff, UInt8.lt_iff_toNat_lt, ← UInt8.toNat_inj] <;>
    omega

theorem compare_of_lt {a b : List UInt8} (less : a < b) : compare a b = .lt := by
  induction a generalizing b with
  | nil =>
    cases b with
    | nil => cases less
    | cons y more => rfl
  | cons x rest ih =>
    cases b with
    | nil => cases less
    | cons y more =>
      rw [List.compare_cons_cons]
      rcases List.cons_lt_cons_iff.mp less with first | ⟨rfl, later⟩
      · rw [compare_eq_lt.mpr first]
        rfl
      · rw [ih later, ReflOrd.compare_self]
        rfl

theorem compare_append_left (p s t : List UInt8) : compare (p ++ s) (p ++ t) = compare s t := by
  induction p with
  | nil => rfl
  | cons x rest ih => rw [List.cons_append, List.cons_append, List.compare_cons_cons, ReflOrd.compare_self, ih]; rfl

theorem order_eq_compare_utf8EncodeChar (a b : List Char) :
    order a b = compare (a.flatMap utf8EncodeChar) (b.flatMap utf8EncodeChar) := by
  have nonempty (c : Char) (rest : List UInt8) : ∃ w more, utf8EncodeChar c ++ rest = w :: more :=
    List.exists_cons_of_ne_nil (by simp [utf8EncodeChar_ne_nil])
  have before {c d : Char} (less : c.toNat < d.toNat) (s t : List UInt8) :
      compare (utf8EncodeChar c ++ s) (utf8EncodeChar d ++ t) = .lt :=
    compare_of_lt ((encodes_utf8EncodeChar c).lt (encodes_utf8EncodeChar d) less s t)
  induction a generalizing b with
  | nil =>
    cases b with
    | nil => rfl
    | cons d more =>
      obtain ⟨w, later, same⟩ := nonempty d (more.flatMap utf8EncodeChar)
      rw [List.flatMap_cons, same]
      rfl
  | cons c rest ih =>
    cases b with
    | nil =>
      obtain ⟨w, later, same⟩ := nonempty c (rest.flatMap utf8EncodeChar)
      rw [List.flatMap_cons, same]
      rfl
    | cons d more =>
      rw [order, List.flatMap_cons, List.flatMap_cons]
      split_ifs with less greater
      · exact (before less _ _).symm
      · rw [OrientedOrd.eq_swap, before greater]
        rfl
      · obtain rfl : c = d := Char.toNat_inj.mp (by omega)
        rw [compare_append_left, ih]

/-- The order by code point is that of the bytes of the texts. -/
theorem order_eq_compare_bytes (s t : String) :
    order s.toList t.toList = compare s.toUTF8.data.toList t.toUTF8.data.toList := by
  have bytes (s : String) : s.toUTF8.data.toList = s.toList.flatMap utf8EncodeChar := by
    rw [toUTF8, ← utf8Encode_toList, List.utf8Encode, List.toList_data_toByteArray]
  rw [bytes, bytes, order_eq_compare_utf8EncodeChar]

end Schemata.Text
