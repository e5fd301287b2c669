import Schemata.Model.Schema
import Mathlib.Data.List.Nodup
import Mathlib.Data.List.Perm.Subperm
import Mathlib.Order.Bounds.Basic

/-! The search for a free key, one candidate after the other. The numbered keys are different from each other and
from the preferred key. If that one is taken, the other taken keys are too few for as many candidates as there are
taken keys, so that the search ends with one of these. -/
namespace Schemata

theorem decimal_injective : Function.Injective Text.decimal := by
  intro a b same
  rw [← Text.value_decimal a, ← Text.value_decimal b, same]

theorem numberedKey_toList (preferred : String) (n : Nat) :
    (numberedKey preferred n).toList = preferred.toList ++ Text.decimal n := by
  simp [numberedKey]

theorem numberedKey_injective (preferred : String) : Function.Injective (numberedKey preferred) := by
  intro a b same
  have lists := congrArg String.toList same
  simp only [numberedKey_toList, List.append_cancel_left_eq] at lists
  exact decimal_injective lists

theorem numberedKey_ne (preferred : String) (n : Nat) : numberedKey preferred n ≠ preferred := by
  intro same
  have lists := congrArg String.toList same
  rw [numberedKey_toList, List.append_right_eq_self] at lists
  exact Text.decimal_ne_nil n lists

/-- Of as many numbered keys as there are taken keys one is free, if the preferred key is taken itself. -/
theorem exists_free {preferred : String} {taken : List String} (occupied : preferred ∈ taken) (n : Nat) :
    ∃ i < taken.length, numberedKey preferred (n + i) ∉ taken := by
  by_contra none
  have all : ∀ i < taken.length, numberedKey preferred (n + i) ∈ taken := by simpa using none
  have distinct : (preferred :: (List.range taken.length).map fun i => numberedKey preferred (n + i)).Nodup := by
    refine List.nodup_cons.mpr ⟨fun among => ?_, ?_⟩
    · obtain ⟨i, -, same⟩ := List.mem_map.mp among
      exact numberedKey_ne preferred (n + i) same
    · exact List.nodup_range.map fun a b same => Nat.add_left_cancel (numberedKey_injective preferred same)
  have inside : (preferred :: (List.range taken.length).map fun i => numberedKey preferred (n + i)) ⊆ taken := by
    refine List.cons_subset.mpr ⟨occupied, fun key found => ?_⟩
    obtain ⟨i, small, rfl⟩ := List.mem_map.mp found
    exact all i (List.mem_range.mp small)
  have short := (List.subperm_of_subset distinct inside).length_le
  rw [List.length_cons, List.length_map, List.length_range] at short
  omega

/-- The numbered keys from `n` on are tried one after the other, until one is free. -/
inductive KeySearch (preferred : String) (taken : List String) : (n tried : Nat) → (key : String) → Prop where
  | free {n : Nat} : numberedKey preferred n ∉ taken → KeySearch preferred taken n 1 (numberedKey preferred n)
  | next {n tried : Nat} {key : String} : numberedKey preferred n ∈ taken →
    KeySearch preferred taken (n + 1) tried key → KeySearch preferred taken n (tried + 1) key

/-- The preferred key is chosen without any try, or the search begins at the number 2. -/
inductive KeyChoice (preferred : String) (taken : List String) : (tried : Nat) → (key : String) → Prop where
  | preferred : preferred ∉ taken → KeyChoice preferred taken 0 preferred
  | numbered {tried : Nat} {key : String} : preferred ∈ taken → KeySearch preferred taken 2 tried key →
    KeyChoice preferred taken tried key

section
variable {preferred key : String} {taken : List String} {n tried : Nat}

/-- The last candidate is free and is what is found; all before it are taken. -/
theorem KeySearch.origin (search : KeySearch preferred taken n tried key) :
    ∃ passed, tried = passed + 1 ∧ key = numberedKey preferred (n + passed) ∧ key ∉ taken ∧
      ∀ i < passed, numberedKey preferred (n + i) ∈ taken := by
  induction search with
  | free free => exact ⟨0, rfl, rfl, free, nofun⟩
  | @next n _ _ here _ ih =>
    obtain ⟨passed, rfl, rfl, free, before⟩ := ih
    have onward (i : Nat) : n + 1 + i = n + (i + 1) := by omega
    refine ⟨passed + 1, rfl, by rw [onward], free, fun i small => ?_⟩
    cases i with
    | zero => exact here
    | succ i => exact onward i ▸ before i (Nat.lt_of_succ_lt_succ small)

theorem KeySearch.unique (search : KeySearch preferred taken n tried key) {tried' : Nat} {key' : String}
    (other : KeySearch preferred taken n tried' key') : tried' = tried ∧ key' = key := by
  induction search generalizing tried' with
  | free free =>
    cases other with
    | free => exact ⟨rfl, rfl⟩
    | next here _ => exact absurd here free
  | next here _ ih =>
    cases other with
    | free free => exact absurd here free
    | next _ later =>
      obtain ⟨rfl, rfl⟩ := ih later
      exact ⟨rfl, rfl⟩

theorem exists_search {i : Nat} (free : numberedKey preferred (n + i) ∉ taken) :
    ∃ tried key, tried ≤ i + 1 ∧ KeySearch preferred taken n tried key := by
  induction i generalizing n with
  | zero => exact ⟨1, _, Nat.le_refl 1, .free free⟩
  | succ i ih =>
    by_cases here : numberedKey preferred n ∈ taken
    · obtain ⟨tried, key, few, search⟩ := ih (n := n + 1) (by rwa [Nat.add_assoc, Nat.add_comm 1 i])
      exact ⟨tried + 1, key, Nat.succ_le_succ few, .next here search⟩
    · exact ⟨1, _, Nat.succ_le_succ (Nat.zero_le _), .free here⟩

theorem KeySearch.firstFreeKey_eq (search : KeySearch preferred taken n tried key) {bound : Nat}
    (enough : tried ≤ bound + 1) : firstFreeKey preferred taken bound n = key := by
  induction search generalizing bound with
  | free free =>
    cases bound with
    | zero => rfl
    | succ bound => rw [firstFreeKey, if_neg free]
  | next here later ih =>
    cases bound with
    | zero =>
      obtain ⟨passed, rfl, -⟩ := later.origin
      omega
    | succ bound =>
      rw [firstFreeKey, if_pos here]
      exact ih (Nat.le_of_succ_le_succ enough)

theorem KeyChoice.not_mem (choice : KeyChoice preferred taken tried key) : key ∉ taken := by
  cases choice with
  | preferred free => exact free
  | numbered _ search =>
    obtain ⟨_, -, -, free, -⟩ := search.origin
    exact free

theorem KeyChoice.unique (choice : KeyChoice preferred taken tried key) {tried' : Nat} {key' : String}
    (other : KeyChoice preferred taken tried' key') : tried' = tried ∧ key' = key := by
  cases choice with
  | preferred free =>
    cases other with
    | preferred => exact ⟨rfl, rfl⟩
    | numbered occupied _ => exact absurd occupied free
  | numbered occupied search =>
    cases other with
    | preferred free => exact absurd occupied free
    | numbered _ search' => exact search.unique search'

end

theorem freeKey_choice (preferred : String) (taken : List String) :
    ∃ tried ≤ taken.length, KeyChoice preferred taken tried (freeKey preferred taken) := by
  by_cases occupied : preferred ∈ taken
  · obtain ⟨i, small, free⟩ := exists_free occupied 2
    obtain ⟨tried, key, few, search⟩ := exists_search free
    have found : freeKey preferred taken = key := by
      rw [freeKey, if_pos occupied]
      exact search.firstFreeKey_eq (by omega)
    exact ⟨tried, by omega, found ▸ .numbered occupied search⟩
  · refine ⟨0, Nat.zero_le _, ?_⟩
    rw [freeKey, if_neg occupied]
    exact .preferred occupied

theorem freeKey_not_mem (preferred : String) (taken : List String) : freeKey preferred taken ∉ taken := by
  obtain ⟨_, -, choice⟩ := freeKey_choice preferred taken
  exact choice.not_mem

theorem freeKey_of_not_mem {key : String} {taken : List String} (free : key ∉ taken) :
    freeKey key taken = key := if_neg free

theorem freeKey_form (preferred : String) (taken : List String) :
    freeKey preferred taken = preferred ∨ ∃ n, freeKey preferred taken = numberedKey preferred n := by
  obtain ⟨_, -, choice⟩ := freeKey_choice preferred taken
  generalize freeKey preferred taken = key at choice
  cases choice with
  | preferred _ => exact .inl rfl
  | numbered _ search =>
    obtain ⟨passed, -, numbered, -⟩ := search.origin
    exact .inr ⟨_, numbered⟩

/-- The choice of a key comes to an end, in one way only and after trying no more numbers than there are taken keys.
What is chosen is free. It is the preferred key exactly if this is free, and otherwise that key with the least
number from 2 on with which it is free; the number is at most one more than the number of taken keys. -/
theorem freeKey_least (preferred : String) (taken : List String) :
    (∃ tried ≤ taken.length, ∀ count key,
      KeyChoice preferred taken count key ↔ count = tried ∧ key = freeKey preferred taken) ∧
    freeKey preferred taken ∉ taken ∧
    (freeKey preferred taken = preferred ↔ preferred ∉ taken) ∧
    (preferred ∈ taken → ∃ n ≤ taken.length + 1, freeKey preferred taken = numberedKey preferred n ∧
      IsLeast {k | 2 ≤ k ∧ numberedKey preferred k ∉ taken} n) := by
  obtain ⟨tried, few, choice⟩ := freeKey_choice preferred taken
  refine ⟨⟨tried, few, fun count key => ⟨choice.unique, ?_⟩⟩, choice.not_mem, ⟨?_, freeKey_of_not_mem⟩, ?_⟩
  · rintro ⟨rfl, rfl⟩
    exact choice
  · intro same
    exact same ▸ choice.not_mem
  · intro occupied
    generalize freeKey preferred taken = key at choice
    cases choice with
    | preferred free => exact absurd occupied free
    | numbered _ search =>
      obtain ⟨passed, rfl, rfl, free, before⟩ := search.origin
      refine ⟨2 + passed, by omega, rfl, ⟨Nat.le_add_right 2 passed, free⟩, ?_⟩
      rintro k ⟨atLeast, free'⟩
      by_contra smaller
      obtain ⟨i, rfl⟩ := Nat.exists_eq_add_of_le atLeast
      exact free' (before i (by omega))

def sampleTaken : List String := ["Item3", "Item", "Item2"]

/-- The number can be one more than the number of taken keys. -/
theorem sampleTaken_least : "Item" ∈ sampleTaken ∧ freeKey "Item" sampleTaken = "Item4" ∧
    ∃ n ≤ 4, freeKey "Item" sampleTaken = numberedKey "Item" n ∧
      IsLeast {k | 2 ≤ k ∧ numberedKey "Item" k ∉ sampleTaken} n :=
  ⟨by decide, by decide +kernel, (freeKey_least "Item" sampleTaken).2.2.2 (by decide)⟩

end Schemata
