import Schemata.Proofs.Directory.Page
import Mathlib.Algebra.Order.Floor.Div
import Mathlib.Data.List.Sort

/-! Draining a listing: its tokens are followed up to the last page. A listing that stays as it is comes out whole
and in order. One that grows meanwhile may give an item twice, but none is passed over that was there at the start:
an item is never moved to a place before that of an item that it was behind. -/
namespace Schemata.Page

variable {α : Type}

theorem slice_eq (items : List α) {token : Option String} {start : Nat} (size : Nat)
    (known : start? token = some start) : slice items token size = .ok ⟨(items.drop start).take (max 1 size),
      if start + max 1 size < items.length then some (tokenOf (start + max 1 size)) else none⟩ := by
  rw [slice, known]
  by_cases more : start + max 1 size < items.length
  · have stop : min (start + max 1 size) items.length = start + max 1 size := by omega
    simp only [stop, if_pos more, List.drop_take, Nat.add_sub_cancel_left]
  · have stop : min (start + max 1 size) items.length = items.length := by omega
    have short : (items.drop start).length ≤ max 1 size := by rw [List.length_drop]; omega
    simp only [stop, if_neg more, Nat.lt_irrefl, if_false, List.take_length, List.take_of_length_le short]

theorem slice_subset {items : List α} {token : Option String} {size : Nat} {page : Page α}
    (sliced : slice items token size = .ok page) : page.items ⊆ items := by
  obtain ⟨start, known⟩ := start?_of_slice sliced
  rw [slice_eq items size known] at sliced
  cases sliced
  exact List.Subset.trans (List.take_subset _ _) (List.drop_subset _ _)

theorem start?_lt {token : Option String} {start : Nat} (known : start? token = some start) :
    start < 18446744073709551616 := by
  cases token with
  | none =>
    cases known
    decide
  | some text =>
    simp only [start?, Text.index?] at known
    split at known
    · rename_i both
      cases known
      exact of_decide_eq_true (Bool.and_eq_true_iff.mp both).2
    · cases known

theorem start?_tokenOf_of_known {index start : Nat} (known : start? (some (tokenOf index)) = some start) :
    start? (some (tokenOf index)) = some index := by
  rw [start?_tokenOf] at known ⊢
  split
  · rfl
  · rename_i large
    rw [if_neg large] at known
    cases known

/-- The pages that the tokens of a listing lead to, up to the one without a token. The listing may be another at
every call: at the first one it is `lists 0`. -/
inductive Drains (size : Nat) : (Nat → List α) → Option String → List (Page α) → Prop where
  | last {lists : Nat → List α} {token : Option String} {page : Page α} :
    slice (lists 0) token size = .ok page → page.next = none → Drains size lists token [page]
  | more {lists : Nat → List α} {token : Option String} {page : Page α} {next : String} {pages : List (Page α)} :
    slice (lists 0) token size = .ok page → page.next = some next →
    Drains size (fun k => lists (k + 1)) (some next) pages → Drains size lists token (page :: pages)

def gathered (pages : List (Page α)) : List α := pages.flatMap (·.items)

theorem gathered_cons (page : Page α) (pages : List (Page α)) :
    gathered (page :: pages) = page.items ++ gathered pages := List.flatMap_cons

theorem gathered_single (page : Page α) : gathered [page] = page.items := List.append_nil _

section
variable {size : Nat} {lists : Nat → List α} {token : Option String} {pages : List (Page α)}

theorem Drains.start (drains : Drains size lists token pages) : ∃ start, start? token = some start := by
  cases drains with
  | last sliced _ => exact start?_of_slice sliced
  | more sliced _ _ => exact start?_of_slice sliced

theorem Drains.length_pos (drains : Drains size lists token pages) : 0 < pages.length := by
  cases drains <;> exact Nat.succ_pos _

theorem Drains.unique (drains : Drains size lists token pages) {others : List (Page α)}
    (drains' : Drains size lists token others) : others = pages := by
  induction drains generalizing others with
  | last sliced ends =>
    cases drains' with
    | last sliced' _ =>
      cases sliced.symm.trans sliced'
      rfl
    | more sliced' next _ =>
      cases sliced.symm.trans sliced'
      cases ends.symm.trans next
  | more sliced next _ ih =>
    cases drains' with
    | last sliced' ends =>
      cases sliced.symm.trans sliced'
      cases next.symm.trans ends
    | more sliced' next' later =>
      cases sliced.symm.trans sliced'
      cases next.symm.trans next'
      rw [ih later]

/-- As many pages as there are full ones, and one more for what is left over. -/
theorem pages_of_more {left width : Nat} (positive : 0 < width) (more : width < left) :
    1 + max 1 ((left - width) ⌈/⌉ width) = max 1 (left ⌈/⌉ width) := by
  obtain ⟨rest, rfl⟩ := Nat.exists_eq_add_of_lt more
  have shift : width + rest + 1 + width - 1 = width + rest + 1 - width + width - 1 + width := by omega
  have some : 0 < (width + rest + 1 - width + width - 1) / width := Nat.div_pos (by omega) positive
  rw [Nat.ceilDiv_eq_add_pred_div, Nat.ceilDiv_eq_add_pred_div, shift, Nat.add_div_right _ positive]
  omega

theorem pages_of_last {left width : Nat} (positive : 0 < width) (last : left ≤ width) :
    1 = max 1 (left ⌈/⌉ width) := by
  have few : (left + width - 1) / width < 2 := Nat.div_lt_of_lt_mul (by omega)
  rw [Nat.ceilDiv_eq_add_pred_div]
  omega

theorem drains_steady {items : List α} (few : items.length < 18446744073709551616) (size : Nat)
    {token : Option String} {start : Nat} (known : start? token = some start) :
    ∃ pages, Drains size (fun _ => items) token pages ∧ gathered pages = items.drop start ∧
      pages.length = max 1 ((items.length - start) ⌈/⌉ max 1 size) := by
  -- By induction on what is left from the token's start on.
  have positive : 0 < max 1 size := by omega
  induction left : items.length - start using Nat.strongRecOn generalizing token start with
  | ind n ih =>
    have sliced := slice_eq items size known
    subst left
    by_cases more : start + max 1 size < items.length
    · rw [if_pos more] at sliced
      have known' : start? (some (tokenOf (start + max 1 size))) = some (start + max 1 size) := by
        rw [start?_tokenOf, if_pos (by omega)]
      obtain ⟨pages, drains, items', length⟩ := ih _ (by omega) known' rfl
      refine ⟨_, .more sliced rfl drains, ?_, ?_⟩
      · rw [gathered_cons, items', ← List.drop_drop, List.take_append_drop]
      · rw [List.length_cons, length, Nat.add_comm, ← Nat.sub_sub]
        exact pages_of_more positive (by omega)
    · rw [if_neg more] at sliced
      refine ⟨_, .last sliced rfl, ?_, ?_⟩
      · rw [gathered_single]
        exact List.take_of_length_le (by rw [List.length_drop]; omega)
      · exact pages_of_last positive (by omega)

theorem drains_whole {items : List α} (few : items.length < 18446744073709551616) (size : Nat) :
    ∃ pages, Drains size (fun _ => items) none pages ∧ gathered pages = items ∧
      pages.length = max 1 (items.length ⌈/⌉ max 1 size) :=
  drains_steady few size (show start? none = some 0 from rfl)

/-- A token is rejected, or it asks for a page. If that is not the last one, the next one starts after it, and the
pages from there on come to an end. -/
theorem slice_steady {items : List α} (few : items.length < 18446744073709551616) (size : Nat)
    (token : Option String) : (∃ e, slice items token size = .error e) ∨
      ∃ start page, start? token = some start ∧ slice items token size = .ok page ∧
        page.items = (items.drop start).take (max 1 size) ∧ ∀ next, page.next = some next →
          ∃ later, start? (some next) = some later ∧ start < later ∧
            ∃ pages, Drains size (fun _ => items) (some next) pages := by
  cases known : start? token with
  | none =>
    have rejected : slice items token size =
        .error (.rejected ("invalid next token " ++ Text.quoted (token.getD ""))) := by rw [slice, known]
    exact .inl ⟨_, rejected⟩
  | some start =>
    refine .inr ⟨start, _, rfl, slice_eq items size known, rfl, fun next more => ?_⟩
    obtain ⟨inside, token⟩ := Option.ite_none_right_eq_some.mp more
    cases token
    have known' : start? (some (tokenOf (start + max 1 size))) = some (start + max 1 size) := by
      rw [start?_tokenOf, if_pos (by omega)]
    obtain ⟨pages, drains, -⟩ := drains_steady few size known'
    exact ⟨_, known', by omega, pages, drains⟩

theorem Drains.covers (drains : Drains size lists token pages) (grows : ∀ k, (lists k).Sublist (lists (k + 1)))
    {start : Nat} (known : start? token = some start) : (lists 0).drop start ⊆ gathered pages := by
  -- By induction on the pages: what the first listing has from a page's stop on is in the next listing from
  -- there on, where the next page starts.
  induction drains generalizing start with
  | @last lists _ _ sliced ends =>
    rw [slice_eq _ size known, Except.ok.injEq] at sliced
    subst sliced
    have whole : ¬ start + max 1 size < (lists 0).length := fun more => by simp [more] at ends
    rw [gathered_single]
    dsimp only
    rw [List.take_of_length_le (by rw [List.length_drop]; omega)]
    exact List.Subset.refl _
  | @more lists _ _ next _ sliced token later ih =>
    rw [slice_eq _ size known, Except.ok.injEq] at sliced
    subst sliced
    obtain ⟨-, token⟩ := Option.ite_none_right_eq_some.mp token
    cases token
    obtain ⟨_, read⟩ := later.start
    have known' := start?_tokenOf_of_known read
    have rest := ih (fun k => grows (k + 1)) known'
    have moved := ((grows 0).drop (start + max 1 size)).subset
    intro x among
    rw [← List.take_append_drop (max 1 size) ((lists 0).drop start), List.drop_drop] at among
    rw [gathered_cons]
    exact List.mem_append.mpr ((List.mem_append.mp among).imp id fun behind => rest (moved behind))

/-- Nothing comes that is not in the listing that is read last. -/
theorem Drains.within (drains : Drains size lists token pages) (grows : ∀ k, lists k ⊆ lists (k + 1)) :
    gathered pages ⊆ lists (pages.length - 1) := by
  induction drains with
  | last sliced _ =>
    rw [gathered_single]
    exact slice_subset sliced
  | @more lists _ page _ pages sliced _ later ih =>
    have rest : gathered pages ⊆ lists pages.length := by
      have last : pages.length - 1 + 1 = pages.length := Nat.sub_add_cancel later.length_pos
      exact last ▸ ih fun k => grows (k + 1)
    have first : ∀ k, lists 0 ⊆ lists k := by
      intro k
      induction k with
      | zero => exact List.Subset.refl _
      | succ k below => exact List.Subset.trans below (grows k)
    rw [gathered_cons, List.length_cons, Nat.add_sub_cancel]
    exact List.append_subset.mpr ⟨List.Subset.trans (slice_subset sliced) (first _), rest⟩

theorem sublist_of_sorted {order : α → α → Prop} [Std.Asymm order] {items more : List α} (sorted : items.Pairwise order)
    (sorted' : more.Pairwise order) (among : items ⊆ more) : items.Sublist more := by
  have distinct : items.Nodup := sorted.imp fun {a b} below same => by
    subst same
    exact Std.Asymm.asymm a a below below
  exact List.sublist_of_subperm_of_pairwise (List.subperm_of_subset distinct among) sorted sorted'

theorem Drains.growing {order : α → α → Prop} [Std.Asymm order] (drains : Drains size lists none pages)
    (sorted : ∀ k, (lists k).Pairwise order) (grows : ∀ k, lists k ⊆ lists (k + 1)) :
    lists 0 ⊆ gathered pages ∧ gathered pages ⊆ lists (pages.length - 1) :=
  ⟨drains.covers (fun k => sublist_of_sorted (sorted k) (sorted (k + 1)) (grows k))
    (show start? none = some 0 from rfl), drains.within grows⟩

end

/-- What is left of all the tokens that there are. -/
theorem remaining_tokens_lt {items : List α} {token : Option String} {size : Nat} {page : Page α} {next : String}
    (sliced : slice items token size = .ok page) (more : page.next = some next) :
    remaining 18446744073709551616 (some next) < remaining 18446744073709551616 token := by
  obtain ⟨start, known⟩ := start?_of_slice sliced
  have small := start?_lt known
  rw [slice_eq items size known, Except.ok.injEq] at sliced
  subst sliced
  obtain ⟨-, same⟩ := Option.ite_none_right_eq_some.mp more
  cases same
  rw [remaining, remaining, known, start?_tokenOf, Option.getD_some]
  split
  · rw [Option.getD_some]
    omega
  · rw [Option.getD_none]
    omega

def wordSum (a b : UInt64) : UInt64 := if a + b < a then 18446744073709551615 else a + b

/-- A page computed with words. A range that ends before it starts has no items. -/
def sliceWords (items : List α) (token : Option String) (size : UInt64) : Except DirectoryError (Page α) :=
  match start? token with
  | none => .error (.rejected ("invalid next token " ++ Text.quoted (token.getD "")))
  | some index =>
    let start := UInt64.ofNat index
    let count := UInt64.ofNat items.length
    let stop := min (wordSum start (max 1 size)) count
    .ok ⟨if start ≤ stop then (items.take stop.toNat).drop start.toNat else [],
      if stop < count then some (tokenOf stop.toNat) else none⟩

theorem toNat_wordSum (a b : UInt64) :
    (wordSum a b).toNat = min (a.toNat + b.toNat) 18446744073709551615 := by
  have boundA := a.toNat_lt
  have boundB := b.toNat_lt
  unfold wordSum
  split
  · rename_i wraps
    rw [UInt64.lt_iff_toNat_lt, UInt64.toNat_add] at wraps
    rw [show (18446744073709551615 : UInt64).toNat = 18446744073709551615 from rfl]
    omega
  · rename_i room
    rw [UInt64.lt_iff_toNat_lt, UInt64.toNat_add] at room
    rw [UInt64.toNat_add]
    omega

theorem toNat_wordMax (a b : UInt64) : (max a b).toNat = max a.toNat b.toNat := by
  change (if a ≤ b then b else a).toNat = _
  rw [Nat.max_def]
  simp only [UInt64.le_iff_toNat_le]
  split <;> rfl

theorem toNat_wordMin (a b : UInt64) : (min a b).toNat = min a.toNat b.toNat := by
  change (if a ≤ b then a else b).toNat = _
  rw [Nat.min_def]
  simp only [UInt64.le_iff_toNat_le]
  split <;> rfl

/-- Nothing is lost with words: their sums do not wrap, and no page has a range that is out of the listing. -/
theorem sliceWords_eq {items : List α} (few : items.length < 18446744073709551616) (token : Option String)
    (size : UInt64) : sliceWords items token size = slice items token size.toNat := by
  unfold sliceWords slice
  cases known : start? token with
  | none => rfl
  | some index =>
    have small := start?_lt known
    have bound := size.toNat_lt
    have start : (UInt64.ofNat index).toNat = index := UInt64.toNat_ofNat_of_lt' small
    have count : (UInt64.ofNat items.length).toNat = items.length := UInt64.toNat_ofNat_of_lt' few
    have stop : (min (wordSum (UInt64.ofNat index) (max 1 size)) (UInt64.ofNat items.length)).toNat =
        min (index + max 1 size.toNat) items.length := by
      rw [toNat_wordMin, toNat_wordSum, toNat_wordMax, start, count, show (1 : UInt64).toNat = 1 from rfl]
      omega
    simp only [UInt64.le_iff_toNat_le, UInt64.lt_iff_toNat_lt, start, count, stop]
    by_cases inside : index ≤ min (index + max 1 size.toNat) items.length
    · rw [if_pos inside]
    · have none : (items.take (min (index + max 1 size.toNat) items.length)).drop index = [] :=
        List.drop_eq_nil_of_le (by rw [List.length_take]; omega)
      rw [if_neg inside, none]

end Schemata.Page
