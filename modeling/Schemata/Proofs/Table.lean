import Schemata.Proofs.Order
import Schemata.Table

/-! Tables are finite maps: a lookup sees the last value set, and a table in ascending order is determined
by what is found in it. -/
namespace Schemata.Table

section
variable {κ α : Type} [Key κ]

/-- The keys ascend, so none of them is there twice. -/
def Sorted (t : Table κ α) : Prop := t.entries.Pairwise fun a b => Key.order a.1 b.1 = .lt

theorem sorted_empty : (empty : Table κ α).Sorted := List.Pairwise.nil

@[simp] theorem get?_empty (key : κ) : (empty : Table κ α).get? key = none := rfl

omit [Key κ] in
theorem last?_eq_none {t : Table κ α} : t.last? = none ↔ t = empty := by
  obtain ⟨entries⟩ := t
  simp [last?, empty]

omit [Key κ] in
theorem mem_of_last? {t : Table κ α} {entry : κ × α} (last : t.last? = some entry) : entry ∈ t.entries :=
  List.mem_of_getLast? last

theorem mem_of_mem_put {key : κ} {value : α} {entries : List (κ × α)} {entry : κ × α}
    (member : entry ∈ put key value entries) : entry = (key, value) ∨ entry ∈ entries := by
  induction entries with
  | nil => simpa [put] using member
  | cons head rest ih =>
    obtain ⟨k, v⟩ := head
    unfold put at member
    split at member
    · simpa using member
    · rcases List.mem_cons.mp member with same | later
      · exact .inl same
      · exact .inr (List.mem_cons_of_mem _ later)
    · rcases List.mem_cons.mp member with same | later
      · exact .inr (by simp [same])
      · rcases ih later with fresh | old
        · exact .inl fresh
        · exact .inr (List.mem_cons_of_mem _ old)

variable [LawfulKey κ]

theorem find?_put_same (key : κ) (value : α) (entries : List (κ × α)) :
    find? key (put key value entries) = some value := by
  induction entries with
  | nil => simp [put, find?]
  | cons head rest ih =>
    obtain ⟨k, v⟩ := head
    cases place : Key.order key k <;> simp [put, find?, place, ih]

theorem find?_put_other {key other : κ} (apart : other ≠ key) (value : α) (entries : List (κ × α)) :
    find? other (put key value entries) = find? other entries := by
  have unequal : Key.order other key ≠ .eq := fun level => apart (Key.order_eq_iff.mp level)
  induction entries with
  | nil => simp [put, find?]
  | cons head rest ih =>
    obtain ⟨k, v⟩ := head
    cases place : Key.order key k with
    | lt => simp [put, find?, place]
    | eq =>
      obtain rfl := Key.order_eq_iff.mp place
      simp [put, find?]
    | gt => simp [put, find?, place, ih]

@[simp] theorem get?_insert_same (t : Table κ α) (key : κ) (value : α) :
    (t.insert key value).get? key = some value := find?_put_same key value t.entries

theorem get?_insert_other {key other : κ} (apart : other ≠ key) (t : Table κ α) (value : α) :
    (t.insert key value).get? other = t.get? other := find?_put_other apart value t.entries

/-- What is found after an entry was set is that entry, or was there before. -/
theorem of_get?_insert {t : Table κ α} {key other : κ} {value found : α}
    (there : (t.insert key value).get? other = some found) :
    other = key ∧ found = value ∨ t.get? other = some found := by
  by_cases same : other = key
  · rw [same, get?_insert_same, Option.some.injEq] at there
    exact .inl ⟨same, there.symm⟩
  · rw [get?_insert_other same] at there
    exact .inr there

theorem contains_insert (t : Table κ α) (key : κ) (value : α) (other : κ) :
    (t.insert key value).contains other = true ↔ other = key ∨ t.contains other = true := by
  unfold contains
  by_cases same : other = key
  · simp [same]
  · simp [same, get?_insert_other same]

theorem mem_of_get? {t : Table κ α} {key : κ} {value : α} (found : t.get? key = some value) :
    (key, value) ∈ t.entries := by
  obtain ⟨entries⟩ := t
  simp only [get?] at found
  induction entries with
  | nil => simp [find?] at found
  | cons head rest ih =>
    obtain ⟨k, v⟩ := head
    unfold find? at found
    split at found
    · rename_i level
      cases found
      simp [Key.order_eq_iff.mp level]
    · exact List.mem_cons_of_mem _ (ih found)

theorem contains_iff_mem_keys {t : Table κ α} {key : κ} : t.contains key = true ↔ key ∈ t.keys := by
  obtain ⟨entries⟩ := t
  simp only [contains, get?, keys]
  induction entries with
  | nil => simp [find?]
  | cons head rest ih =>
    obtain ⟨k, v⟩ := head
    unfold find?
    split
    · rename_i level
      simp [Key.order_eq_iff.mp level]
    · rename_i apart
      have other : key ≠ k := fun same => apart (Key.order_eq_iff.mpr same)
      simp [ih, other]

theorem Sorted.get?_of_mem {t : Table κ α} (sorted : t.Sorted) {key : κ} {value : α}
    (member : (key, value) ∈ t.entries) : t.get? key = some value := by
  obtain ⟨entries⟩ := t
  simp only [get?]
  induction entries with
  | nil => simp at member
  | cons head rest ih =>
    obtain ⟨k, v⟩ := head
    obtain ⟨below, sorted'⟩ := List.pairwise_cons.mp sorted
    rcases List.mem_cons.mp member with same | later
    · cases same
      simp [find?]
    · have greater : Key.order key k = .gt := Key.gt_iff_lt.mpr (below _ later)
      simp [find?, greater, ih sorted' later]

theorem Sorted.get?_eq_some_iff {t : Table κ α} (sorted : t.Sorted) {key : κ} {value : α} :
    t.get? key = some value ↔ (key, value) ∈ t.entries := ⟨mem_of_get?, sorted.get?_of_mem⟩

theorem sorted_insert {t : Table κ α} (sorted : t.Sorted) (key : κ) (value : α) :
    (t.insert key value).Sorted := by
  obtain ⟨entries⟩ := t
  simp only [Sorted, insert] at sorted ⊢
  induction entries with
  | nil => simp [put]
  | cons head rest ih =>
    obtain ⟨k, v⟩ := head
    obtain ⟨below, sorted'⟩ := List.pairwise_cons.mp sorted
    unfold put
    split
    · rename_i less
      apply List.pairwise_cons.mpr
      refine ⟨fun entry member => ?_, sorted⟩
      rcases List.mem_cons.mp member with same | later
      · simpa [same] using less
      · exact Key.lt_trans less (below entry later)
    · rename_i level
      obtain rfl := Key.order_eq_iff.mp level
      exact List.pairwise_cons.mpr ⟨below, sorted'⟩
    · rename_i greater
      apply List.pairwise_cons.mpr
      refine ⟨fun entry member => ?_, ih sorted'⟩
      rcases mem_of_mem_put member with fresh | old
      · rw [fresh]
        exact Key.gt_iff_lt.mp greater
      · exact below entry old

theorem Sorted.nodup_keys {t : Table κ α} (sorted : t.Sorted) : t.keys.Nodup :=
  List.pairwise_map.mpr (sorted.imp Key.ne_of_lt)

/-- Two tables in order in which the same is found are the same. -/
theorem Sorted.ext {s t : Table κ α} (sortedS : s.Sorted) (sortedT : t.Sorted)
    (same : ∀ key, s.get? key = t.get? key) : s = t := by
  have members : ∀ entry, entry ∈ s.entries ↔ entry ∈ t.entries := by
    rintro ⟨key, value⟩
    rw [← sortedS.get?_eq_some_iff, ← sortedT.get?_eq_some_iff, same]
  have nodupS : s.entries.Nodup := sortedS.imp fun less same => Key.ne_of_lt less (congrArg _ same)
  have nodupT : t.entries.Nodup := sortedT.imp fun less same => Key.ne_of_lt less (congrArg _ same)
  have permuted : s.entries.Perm t.entries := (List.perm_ext_iff_of_nodup nodupS nodupT).mpr members
  have equal : s.entries = t.entries := by
    refine permuted.eq_of_pairwise ?_ sortedS sortedT
    intro a b _ _ less greater
    have loop := Key.lt_trans less greater
    rw [Key.order_self] at loop
    cases loop
  cases s
  cases t
  exact congrArg _ equal

/-- The last entry is the one with the greatest key. -/
theorem Sorted.last?_eq_some_iff {t : Table κ α} (sorted : t.Sorted) {key : κ} {value : α} :
    t.last? = some (key, value) ↔ t.get? key = some value ∧
      ∀ other w, t.get? other = some w → other = key ∨ Key.order other key = .lt := by
  constructor
  · intro last
    refine ⟨sorted.get?_of_mem (mem_of_last? last), fun other w found => ?_⟩
    obtain ⟨before, parts⟩ := List.getLast?_eq_some_iff.mp last
    have member := mem_of_get? found
    rw [parts, List.mem_append] at member
    rcases member with earlier | same
    · rw [Sorted, parts, List.pairwise_append] at sorted
      exact .inr (sorted.2.2 _ earlier _ (List.mem_singleton_self _))
    · exact .inl (congrArg Prod.fst (List.mem_singleton.mp same))
  · rintro ⟨found, greatest⟩
    cases last : t.last? with
    | none => simp [last?_eq_none.mp last] at found
    | some entry =>
      obtain ⟨k, v⟩ := entry
      have inside := mem_of_last? last
      obtain ⟨before, parts⟩ := List.getLast?_eq_some_iff.mp last
      have member := mem_of_get? found
      rw [parts, List.mem_append] at member
      rcases member with earlier | same
      · have order := sorted
        rw [Sorted, parts, List.pairwise_append] at order
        have less := order.2.2 _ earlier _ (List.mem_singleton_self _)
        rcases greatest k v (sorted.get?_of_mem inside) with equal | greater
        · exact absurd equal.symm (Key.ne_of_lt less)
        · have loop := Key.lt_trans less greater
          rw [Key.order_self] at loop
          cases loop
      · rw [List.mem_singleton.mp same]

theorem put_of_all_lt {key : κ} (value : α) {entries : List (κ × α)}
    (above : ∀ entry ∈ entries, Key.order entry.1 key = .lt) :
    put key value entries = entries ++ [(key, value)] := by
  induction entries with
  | nil => rfl
  | cons head rest ih =>
    obtain ⟨k, v⟩ := head
    have greater : Key.order key k = .gt := Key.gt_iff_lt.mpr (above _ List.mem_cons_self)
    have later := ih fun entry member => above entry (List.mem_cons_of_mem _ member)
    simp [put, greater, later]

/-- A key after all others goes to the end. -/
theorem insert_of_all_lt {t : Table κ α} {key : κ} (value : α)
    (above : ∀ entry ∈ t.entries, Key.order entry.1 key = .lt) :
    (t.insert key value).entries = t.entries ++ [(key, value)] := put_of_all_lt value above

/-- Entries under different keys are all found in the table made of them. -/
theorem get?_ofList {entries : List (κ × α)} (unique : (entries.map (·.1)).Nodup) {key : κ} {value : α} :
    (ofList entries).get? key = some value ↔ (key, value) ∈ entries := by
  suffices gathered : ∀ t : Table κ α, (∀ entry ∈ entries, t.get? entry.1 = none) →
      ((entries.foldl (fun t entry => t.insert entry.1 entry.2) t).get? key = some value ↔
        t.get? key = some value ∨ (key, value) ∈ entries) by
    simpa [ofList] using gathered empty (by simp)
  induction entries with
  | nil => simp
  | cons head rest ih =>
    obtain ⟨k, v⟩ := head
    obtain ⟨alone, unique'⟩ := List.nodup_cons.mp unique
    intro t fresh
    have fresh' : ∀ entry ∈ rest, (t.insert k v).get? entry.1 = none := by
      intro entry member
      have inside : entry.1 ∈ rest.map (·.1) := List.mem_map_of_mem member
      have apart : entry.1 ≠ k := fun same => alone (same ▸ inside)
      rw [get?_insert_other apart]
      exact fresh entry (List.mem_cons_of_mem _ member)
    rw [List.foldl_cons, ih unique' _ fresh', List.mem_cons, ← or_assoc]
    refine or_congr_left ?_
    have new := fresh (k, v) List.mem_cons_self
    by_cases same : key = k
    · subst same
      rw [get?_insert_same, new]
      simp [eq_comm]
    · rw [get?_insert_other same]
      simp [same]

theorem sorted_ofList (entries : List (κ × α)) : (ofList entries).Sorted := by
  suffices gathered : ∀ t : Table κ α, t.Sorted →
      (entries.foldl (fun t entry => t.insert entry.1 entry.2) t).Sorted from gathered _ sorted_empty
  induction entries with
  | nil => exact fun t sorted => sorted
  | cons head rest ih => exact fun t sorted => ih _ (sorted_insert sorted _ _)

/-- A table in order is the table of its entries. -/
theorem Sorted.ofList_entries {t : Table κ α} (sorted : t.Sorted) : ofList t.entries = t := by
  refine (sorted_ofList t.entries).ext sorted fun key => Option.ext fun value => ?_
  rw [get?_ofList sorted.nodup_keys, sorted.get?_eq_some_iff]

end

section
variable {κ α β : Type}

/-- The table with a function applied to every value. -/
def mapValues (f : α → β) (t : Table κ α) : Table κ β := ⟨t.entries.map fun entry => (entry.1, f entry.2)⟩

@[simp] theorem keys_mapValues (f : α → β) (t : Table κ α) : (t.mapValues f).keys = t.keys := by
  simp [mapValues, keys]

theorem last?_mapValues (f : α → β) (t : Table κ α) :
    (t.mapValues f).last? = t.last?.map fun entry => (entry.1, f entry.2) := by
  simp [mapValues, last?]

variable [Key κ]

theorem get?_mapValues (f : α → β) (t : Table κ α) (key : κ) :
    (t.mapValues f).get? key = (t.get? key).map f := by
  obtain ⟨entries⟩ := t
  simp only [mapValues, get?]
  induction entries with
  | nil => rfl
  | cons head rest ih =>
    obtain ⟨k, v⟩ := head
    cases place : Key.order key k <;> simp [find?, place, ih]

theorem mapValues_insert (f : α → β) (t : Table κ α) (key : κ) (value : α) :
    (t.insert key value).mapValues f = (t.mapValues f).insert key (f value) := by
  obtain ⟨entries⟩ := t
  simp only [mapValues, insert, mk.injEq]
  induction entries with
  | nil => rfl
  | cons head rest ih =>
    obtain ⟨k, v⟩ := head
    cases place : Key.order key k <;> simp [put, place, ih]

theorem sorted_mapValues {f : α → β} {t : Table κ α} (sorted : t.Sorted) : (t.mapValues f).Sorted := by
  rw [Sorted, mapValues, List.pairwise_map]
  exact sorted

end

end Schemata.Table

namespace Schemata.Names

theorem contains_add (names : Names) (name other : String) :
    (names.add name).contains other = true ↔ other = name ∨ names.contains other = true :=
  Table.contains_insert names name () other

theorem contains_addAll (names : Names) (more : List String) (name : String) :
    (names.addAll more).contains name = true ↔ names.contains name = true ∨ name ∈ more := by
  induction more generalizing names with
  | nil => simp [addAll]
  | cons first rest ih =>
    have step := ih (names.add first)
    simp only [addAll, List.foldl_cons] at step ⊢
    rw [step, contains_add, List.mem_cons]
    tauto

end Schemata.Names
