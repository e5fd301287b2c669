import Schemata.Text.Digits
import Schemata.Text.Quoted

/-!
Paging: a long listing is handed out in slices. The token that asks for the next slice is the index of its
first item.
-/
namespace Schemata

inductive DirectoryError where
  | notFound (name version : String)
  /-- The submitted content is that of the current version. -/
  | conflict (name : String)
  | rejected (reason : String)
  | io (reason : String)
  | json (reason : String)
deriving DecidableEq, Repr

def DirectoryError.message : DirectoryError → String
  | notFound name version => "Schema not found in directory: " ++ name ++ " version " ++ version
  | conflict name => "Schema content unchanged: " ++ name
  | rejected reason => "Request rejected: " ++ reason
  | io reason => "IO error: " ++ reason
  | json reason => "JSON error: " ++ reason

structure Page (α : Type) where
  items : List α
  next : Option String
deriving DecidableEq, Repr

namespace Page

/-- The index that a token denotes: a numeral of a 64-bit word, the first item if there is no token. -/
def start? : Option String → Option Nat
  | none => some 0
  | some token => Text.index? 18446744073709551616 token.toList

def tokenOf (index : Nat) : String := String.ofList (Text.decimal index)

/-- The slice of at most `size` items, at least one, that the token asks for. -/
def slice (items : List α) (token : Option String) (size : Nat) : Except DirectoryError (Page α) :=
  match start? token with
  | none => .error (.rejected ("invalid next token " ++ Text.quoted (token.getD "")))
  | some start =>
    let stop := min (start + max 1 size) items.length
    .ok ⟨(items.take stop).drop start, if stop < items.length then some (tokenOf stop) else none⟩

/-- Items from the token's on; a token that denotes no index has none. -/
def remaining (count : Nat) (token : Option String) : Nat := count - (start? token).getD count

theorem remaining_slice_lt {items : List α} {token : Option String} {size : Nat} {page : Page α}
    {next : String} (sliced : slice items token size = .ok page) (more : page.next = some next) :
    remaining items.length (some next) < remaining items.length token := by
  unfold slice at sliced
  cases hs : start? token with
  | none => simp [hs] at sliced
  | some start =>
    simp only [hs, Except.ok.injEq] at sliced
    subst sliced
    simp only [Option.ite_none_right_eq_some, Option.some.injEq] at more
    obtain ⟨inside, rfl⟩ := more
    simp only [remaining, hs, Option.getD_some]
    have stop : min (start + max 1 size) items.length = start + max 1 size := by omega
    simp only [start?, tokenOf, String.toList_ofList]
    by_cases small : min (start + max 1 size) items.length < 18446744073709551616
    · rw [Text.index?_decimal small]
      simp only [Option.getD_some]
      omega
    · have : Text.index? 18446744073709551616 (Text.decimal (min (start + max 1 size) items.length)) = none := by
        simp only [Text.index?, Text.dropPlus_decimal, Text.value_decimal]
        exact if_neg fun both => small (of_decide_eq_true (Bool.and_eq_true_iff.1 both).2)
      rw [this]
      simp only [Option.getD_none]
      omega

end Page

end Schemata
