import Schemata.Text.Digits
import Schemata.Text.Order

/-!
Version identifiers and their order: numerals by the number they denote, before all other texts.
-/
namespace Schemata

structure VersionId where
  text : String
deriving DecidableEq, Repr

namespace VersionId

def isNumeric (v : VersionId) : Bool := Text.isNumeral v.text.toList

/-- The numeral without leading zeros; nothing is left of a row of zeros. -/
def significant (v : VersionId) : List Char := v.text.toList.dropWhile (· = '0')

/-- Numerals by value, of two that denote one number by their texts; then all others by their texts. -/
def order (a b : VersionId) : Ordering :=
  match a.isNumeric, b.isNumeric with
  | true, true =>
    if a.significant.length < b.significant.length then .lt
    else if b.significant.length < a.significant.length then .gt
    else (Text.order a.significant b.significant).then (Text.order a.text.toList b.text.toList)
  | true, false => .lt
  | false, true => .gt
  | false, false => Text.order a.text.toList b.text.toList

instance : Key VersionId := ⟨order⟩

def first : VersionId := ⟨"1"⟩

/-- The numeral of the next 64-bit word, after the greatest that of zero; the first version after any text that is
not the numeral of a word. -/
def next (v : VersionId) : VersionId :=
  if v.isNumeric && Text.value v.text.toList < 18446744073709551616 then
    ⟨String.ofList (Text.decimal ((Text.value v.text.toList + 1) % 18446744073709551616))⟩
  else first

end VersionId

end Schemata
