import Schemata.Json.Printer
import Schemata.Json.Reader

/-! What is written between quotes is read back: every character is written as itself, as a backslash with
one letter, or as the four digits of its unit. -/
namespace Schemata

theorem Text.hexValue?_hexDigit {d : Nat} (small : d < 16) :
    Text.hexValue? (Text.hexDigit d) = some d := by
  have all : ∀ d < 16, Text.hexValue? (Text.hexDigit d) = some d := by decide
  exact all d small

namespace Json

theorem unit?_control {n : Nat} (small : n < 256) :
    unit? '0' '0' (Text.hexDigit (n / 16)) (Text.hexDigit (n % 16)) = some n := by
  have zero : Text.hexValue? '0' = some 0 := rfl
  have high : n / 16 < 16 := by omega
  have low : n % 16 < 16 := by omega
  simp only [unit?, zero, Text.hexValue?_hexDigit high, Text.hexValue?_hexDigit low, Option.bind_eq_bind,
    Option.bind_some, Option.pure_def, Option.some.injEq]
  omega

theorem escaped_cases (c : Char) :
    (∃ x, escaped c = ['\\', x] ∧ x ≠ 'u' ∧ unescape? x = some c) ∨
    (escaped c = ['\\', 'u', '0', '0', Text.hexDigit (c.toNat / 16), Text.hexDigit (c.toNat % 16)] ∧
      c.toNat < 0x20) ∨
    escaped c = [c] ∧ c ≠ '"' ∧ c ≠ '\\' ∧ 0x20 ≤ c.toNat := by
  unfold escaped
  split
  · exact .inl ⟨'"', rfl, by decide, rfl⟩
  · exact .inl ⟨'\\', rfl, by decide, rfl⟩
  · exact .inl ⟨'b', rfl, by decide, rfl⟩
  · exact .inl ⟨'f', rfl, by decide, rfl⟩
  · exact .inl ⟨'n', rfl, by decide, rfl⟩
  · exact .inl ⟨'r', rfl, by decide, rfl⟩
  · exact .inl ⟨'t', rfl, by decide, rfl⟩
  · rename_i quote backslash _ _ _ _ _
    by_cases control : c.toNat < 0x20
    · exact .inr (.inl ⟨if_pos control, control⟩)
    · exact .inr (.inr ⟨if_neg control, quote, backslash, by omega⟩)

theorem readQuoted_append (c : Char) (seen rest : List Char) :
    readQuoted seen (escaped c ++ rest) = readQuoted ((escaped c).reverse ++ seen) rest := by
  rcases escaped_cases c with ⟨x, written, letter, stands⟩ | ⟨written, control⟩ | ⟨written, quote, backslash, visible⟩
  · rw [written]
    change readQuoted seen ('\\' :: x :: rest) = readQuoted (x :: '\\' :: seen) rest
    rw [readQuoted]
    · simp only [stands]
    · exact fun a b c d more same _ => letter same
  · have unit := unit?_control (n := c.toNat) (by omega)
    rw [written]
    change readQuoted seen ('\\' :: 'u' :: '0' :: '0' :: _ :: _ :: rest) = _
    rw [readQuoted]
    simp only [unit]
    rfl
  · have shown : ¬ c.toNat < 0x20 := by omega
    rw [written]
    change readQuoted seen (c :: rest) = readQuoted (c :: seen) rest
    rw [readQuoted]
    · rw [if_neg shown]
    · exact quote
    · exact fun a b c d rest' same _ => backslash same
    · exact fun d rest' same _ => backslash same

theorem unquote?_append (c : Char) (seen rest : List Char) :
    unquote? seen (escaped c ++ rest) = unquote? (c :: seen) rest := by
  rcases escaped_cases c with ⟨x, written, letter, stands⟩ | ⟨written, control⟩ | ⟨written, -, backslash, -⟩
  · rw [written]
    change unquote? seen ('\\' :: x :: rest) = _
    rw [unquote?]
    · simp only [stands]
    · exact fun a b c d more same _ => letter same
  · have unit := unit?_control (n := c.toNat) (by omega)
    have trailing : isTrailing c.toNat = false := by simp [isTrailing]; omega
    have leading : isLeading c.toNat = false := by simp [isLeading]; omega
    rw [written]
    change unquote? seen ('\\' :: 'u' :: '0' :: '0' :: _ :: _ :: rest) = _
    rw [unquote?]
    simp only [unit, trailing, leading, Bool.false_eq_true, if_false, Char.ofNat_toNat]
  · rw [written]
    change unquote? seen (c :: rest) = _
    rw [unquote?]
    · exact fun a b c d rest' same _ => backslash same
    · exact fun d rest' same _ => backslash same

theorem readQuoted_escaped (s seen rest : List Char) :
    readQuoted seen (s.flatMap escaped ++ '"' :: rest) =
      some (seen.reverse ++ s.flatMap escaped, rest) := by
  induction s generalizing seen with
  | nil =>
    rw [List.flatMap_nil, List.append_nil]
    rfl
  | cons c s ih =>
    rw [List.flatMap_cons, List.append_assoc, readQuoted_append, ih, List.reverse_append, List.reverse_reverse,
      List.append_assoc]

theorem unquote?_escaped (s seen : List Char) :
    unquote? seen (s.flatMap escaped) = some (seen.reverse ++ s) := by
  induction s generalizing seen with
  | nil =>
    rw [List.flatMap_nil, List.append_nil]
    rfl
  | cons c s ih => rw [List.flatMap_cons, unquote?_append, ih, List.reverse_cons, List.append_assoc, List.singleton_append]

/-- A written string is read back, after its opening quote. -/
theorem readString_escaped (s : String) (rest : List Char) :
    readString (s.toList.flatMap escaped ++ '"' :: rest) = some (some s, rest) := by
  simp [readString, readQuoted_escaped, unquote?_escaped]

end Json

end Schemata
