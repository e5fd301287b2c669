import Schemata.Directory.Page
import Mathlib.Data.List.Basic

/-! Following the tokens of a listing: each page continues where the one before it stopped. Paging sees how many
items there are, and not what they are. -/
namespace Schemata.Page

theorem start?_tokenOf (index : Nat) :
    start? (some (tokenOf index)) = if index < 18446744073709551616 then some index else none := by
  simp only [start?, tokenOf, String.toList_ofList]
  by_cases small : index < 18446744073709551616
  · rw [Text.index?_decimal small, if_pos small]
  · rw [if_neg small, Text.index?, Text.dropPlus_decimal, Text.value_decimal]
    exact if_neg fun both => small (of_decide_eq_true (Bool.and_eq_true_iff.1 both).2)

theorem start?_of_slice {items : List α} {token : Option String} {size : Nat} {page : Page α}
    (sliced : slice items token size = .ok page) : ∃ start, start? token = some start := by
  unfold slice at sliced
  cases known : start? token with
  | none => simp [known] at sliced
  | some start => exact ⟨start, rfl⟩

/-- A page holds what is from its start to its stop. It is the last one, or the next one starts there. -/
theorem slice_cases (items : List α) {token : Option String} {start : Nat} (size : Nat)
    (known : start? token = some start) (inside : start ≤ items.length) :
    ∃ page stop, slice items token size = .ok page ∧ stop ≤ items.length ∧
      page.items ++ items.drop stop = items.drop start ∧
      (page.next = none ∧ stop = items.length ∨ page.next = some (tokenOf stop) ∧ start < stop) := by
  have stops : start ≤ min (start + max 1 size) items.length := by omega
  refine ⟨_, min (start + max 1 size) items.length, by rw [slice, known], Nat.min_le_right _ _, ?_, ?_⟩
  · rw [← List.drop_append_of_le_length, List.take_append_drop]
    rw [List.length_take]
    omega
  · by_cases more : min (start + max 1 size) items.length < items.length
    · exact .inr ⟨if_pos more, by omega⟩
    · exact .inl ⟨if_neg more, by omega⟩

/-- The page with a function applied to every item. -/
def map (f : α → β) (page : Page α) : Page β := ⟨page.items.map f, page.next⟩

theorem slice_map (f : α → β) (items : List α) (token : Option String) (size : Nat) :
    slice (items.map f) token size = (slice items token size).map (map f) := by
  unfold slice
  cases start? token with
  | none => rfl
  | some start => simp [Except.map, map, List.map_take, List.map_drop]

end Schemata.Page
