import Mathlib.Data.List.Dedup
import Schemata.History
import Schemata.Proofs.Table
import Schemata.Proofs.Version.Order

/-! What a history holds after any versions have been inserted: for each identifier the version that came first,
in the order of the identifiers and not in that of the insertions. -/
namespace Schemata

attribute [ext] History VersionId

namespace History

open Table

/-- Inserts versions one after the other; says of each whether it was added. -/
def insertAll (h : History) : List Version → History × List Bool
  | [] => (h, [])
  | v :: rest =>
    (((h.insert v).1.insertAll rest).1, (h.insert v).2 :: ((h.insert v).1.insertAll rest).2)

/-- The first of some versions with an identifier. -/
def first? (vs : List Version) (id : VersionId) : Option Version := vs.find? fun v => v.id = id

/-- A history after some versions were inserted, and what was answered to each. -/
structure FirstWins (vs : List Version) (h : History) (added : List Bool) : Prop where
  holds : ∀ id, h.versions.get? id = first? vs id
  answers : added = vs.mapIdx fun i v => decide (v.id ∉ (vs.take i).map (·.id))
  size : h.versions.size = (vs.map (·.id)).dedup.length
  listed : ∀ v, v ∈ h.versions.values ↔ first? vs v.id = some v
  ascending : h.versions.values.Pairwise fun a b => VersionId.order a.id b.id = .lt
  greatest : ∀ v, h.get? none = some v ↔
    first? vs v.id = some v ∧ ∀ w ∈ vs, w.id = v.id ∨ VersionId.order w.id v.id = .lt
  default : h.defaultId? = (h.get? none).map (·.id)
  nothing : h.get? none = none ↔ vs = []
  found : ∀ text, h.get? (some text) = vs.find? fun v => v.id.text = text

section
variable (h : History) (v : Version)

theorem get?_insert (id : VersionId) :
    (h.insert v).1.versions.get? id = (h.versions.get? id).or (if v.id = id then some v else none) := by
  unfold insert contains
  cases taken : h.versions.get? v.id with
  | some kept =>
    by_cases same : v.id = id
    · subst same
      simp [taken]
    · simp [same]
  | none =>
    by_cases same : v.id = id
    · subst same
      simp [taken]
    · have other : id ≠ v.id := fun equal => same equal.symm
      simp [same, get?_insert_other other]

theorem insert_adds : (h.insert v).2 = (h.versions.get? v.id).isNone := by
  unfold insert contains
  cases h.versions.get? v.id <;> rfl

theorem insert_owner : (h.insert v).1.registry = h.registry ∧ (h.insert v).1.name = h.name := by
  unfold insert
  split <;> exact ⟨rfl, rfl⟩

end

/-- The identifiers ascend. -/
theorem sorted_insert {h : History} (sorted : h.versions.Sorted) (v : Version) :
    (h.insert v).1.versions.Sorted := by
  unfold insert
  split
  · exact sorted
  · exact Table.sorted_insert sorted v.id v

theorem sorted_insertAll {h : History} (sorted : h.versions.Sorted) (vs : List Version) :
    (h.insertAll vs).1.versions.Sorted := by
  induction vs generalizing h with
  | nil => exact sorted
  | cons v rest ih => exact ih (sorted_insert sorted v)

theorem insertAll_owner (h : History) (vs : List Version) :
    (h.insertAll vs).1.registry = h.registry ∧ (h.insertAll vs).1.name = h.name := by
  induction vs generalizing h with
  | nil => exact ⟨rfl, rfl⟩
  | cons v rest ih =>
    obtain ⟨registry, name⟩ := ih (h.insert v).1
    obtain ⟨registry', name'⟩ := insert_owner h v
    exact ⟨registry.trans registry', name.trans name'⟩

theorem first?_cons (v : Version) (rest : List Version) (id : VersionId) :
    first? (v :: rest) id = (if v.id = id then some v else none).or (first? rest id) := by
  by_cases same : v.id = id <;> simp [first?, same]

theorem get?_insertAll (h : History) (vs : List Version) (id : VersionId) :
    (h.insertAll vs).1.versions.get? id = (h.versions.get? id).or (first? vs id) := by
  induction vs generalizing h with
  | nil => exact Option.or_none.symm
  | cons v rest ih => rw [insertAll, ih, get?_insert, Option.or_assoc, first?_cons]

/-- A version is added if there is none under its identifier, and none came before it. -/
theorem insertAll_adds (h : History) (vs : List Version) :
    (h.insertAll vs).2 = vs.mapIdx fun i v =>
      decide (h.versions.get? v.id = none ∧ v.id ∉ (vs.take i).map (·.id)) := by
  induction vs generalizing h with
  | nil => rfl
  | cons v rest ih =>
    rw [insertAll, ih, List.mapIdx_cons, insert_adds, List.cons.injEq]
    constructor
    · cases h.versions.get? v.id <;> simp
    · congr 1
      funext i w
      rw [get?_insert, decide_eq_decide, List.take_succ_cons, List.map_cons, List.mem_cons, Option.or_eq_none_iff]
      by_cases same : v.id = w.id
      · simp [same]
      · simp [same, Ne.symm same]

theorem of_first? {vs : List Version} {id : VersionId} {v : Version} (first : first? vs id = some v) :
    v ∈ vs ∧ v.id = id :=
  ⟨List.mem_of_find?_eq_some first, by simpa using List.find?_some first⟩

theorem isSome_first?_iff {vs : List Version} {id : VersionId} :
    (first? vs id).isSome ↔ id ∈ vs.map (·.id) := by
  simp [first?, List.find?_isSome]

theorem exists_first? {vs : List Version} {v : Version} (inside : v ∈ vs) : ∃ kept, first? vs v.id = some kept :=
  Option.isSome_iff_exists.mp (isSome_first?_iff.mpr (List.mem_map_of_mem inside))

/-- Of versions with different identifiers each is the first. -/
theorem first?_eq_some_iff {vs : List Version} (unique : (vs.map (·.id)).Nodup) {id : VersionId} {v : Version} :
    first? vs id = some v ↔ v ∈ vs ∧ v.id = id := by
  refine ⟨of_first?, ?_⟩
  rintro ⟨inside, rfl⟩
  obtain ⟨w, first⟩ := exists_first? inside
  obtain ⟨inside', same⟩ := of_first? first
  rwa [List.inj_on_of_nodup_map unique inside' inside same] at first

/-- They are found in every order. -/
theorem first?_perm {vs ws : List Version} (permuted : vs.Perm ws) (unique : (vs.map (·.id)).Nodup)
    (id : VersionId) : first? vs id = first? ws id := by
  have unique' : (ws.map (·.id)).Nodup := (permuted.map _).nodup_iff.mp unique
  ext v
  rw [first?_eq_some_iff unique, first?_eq_some_iff unique', permuted.mem_iff]

/-- The first version under each identifier is what is found there. -/
structure HoldsFirsts (h : History) (vs : List Version) : Prop where
  sorted : h.versions.Sorted
  holds : ∀ id, h.versions.get? id = first? vs id

namespace HoldsFirsts

variable {h : History} {vs : List Version} (firsts : h.HoldsFirsts vs)
include firsts

theorem get?_text (text : String) : h.get? (some text) = vs.find? fun v => v.id.text = text := by
  rw [get?, firsts.holds, first?]
  simp only [VersionId.ext_iff]

theorem mem_entries_iff {id : VersionId} {v : Version} :
    (id, v) ∈ h.versions.entries ↔ first? vs id = some v := by
  rw [← firsts.sorted.get?_eq_some_iff, firsts.holds]

/-- Entries are under the identifiers of their versions. -/
theorem id_eq {entry : VersionId × Version} (inside : entry ∈ h.versions.entries) : entry.2.id = entry.1 :=
  (of_first? (firsts.mem_entries_iff.mp inside)).2

theorem mem_values_iff {v : Version} : v ∈ h.versions.values ↔ first? vs v.id = some v := by
  rw [values, List.mem_map]
  constructor
  · rintro ⟨⟨id, v⟩, inside, rfl⟩
    rw [firsts.id_eq inside]
    exact firsts.mem_entries_iff.mp inside
  · intro first
    exact ⟨(v.id, v), firsts.mem_entries_iff.mpr first, rfl⟩

theorem size_eq : h.versions.size = (vs.map (·.id)).dedup.length := by
  have same : h.versions.keys.Perm (vs.map (·.id)).dedup := by
    apply (List.perm_ext_iff_of_nodup firsts.sorted.nodup_keys (List.nodup_dedup _)).mpr
    intro id
    rw [← contains_iff_mem_keys, contains, firsts.holds, isSome_first?_iff, List.mem_dedup]
  rw [size, ← same.length_eq, keys, List.length_map]

theorem ascending : h.versions.values.Pairwise fun a b => VersionId.order a.id b.id = .lt := by
  rw [values, List.pairwise_map]
  refine firsts.sorted.imp_of_mem fun {a b} insideA insideB less => ?_
  rw [firsts.id_eq insideA, firsts.id_eq insideB]
  exact less

theorem last?_iff {id : VersionId} {v : Version} : h.versions.last? = some (id, v) ↔
    first? vs id = some v ∧ ∀ w ∈ vs, w.id = id ∨ VersionId.order w.id id = .lt := by
  rw [firsts.sorted.last?_eq_some_iff, firsts.holds]
  refine and_congr_right fun _ => ⟨fun above w inside => ?_, fun above other w found => ?_⟩
  · obtain ⟨kept, first⟩ := exists_first? inside
    exact above w.id kept (by rw [firsts.holds, first])
  · rw [firsts.holds] at found
    obtain ⟨inside, rfl⟩ := of_first? found
    exact above w inside

theorem greatest_iff {v : Version} : h.get? none = some v ↔
    first? vs v.id = some v ∧ ∀ w ∈ vs, w.id = v.id ∨ VersionId.order w.id v.id = .lt := by
  rw [get?, Option.map_eq_some_iff, ← firsts.last?_iff]
  constructor
  · rintro ⟨⟨id, v⟩, last, rfl⟩
    rwa [firsts.id_eq (mem_of_last? last)]
  · intro last
    exact ⟨(v.id, v), last, rfl⟩

theorem defaultId?_eq : h.defaultId? = (h.get? none).map (·.id) := by
  rw [defaultId?, get?]
  cases last : h.versions.last? with
  | none => rfl
  | some entry => exact congrArg some (firsts.id_eq (mem_of_last? last)).symm

theorem get?_none_eq_none_iff : h.get? none = none ↔ vs = [] := by
  rw [get?, Option.map_eq_none_iff, last?_eq_none]
  constructor
  · intro bare
    apply List.eq_nil_iff_forall_not_mem.mpr
    intro v inside
    obtain ⟨kept, first⟩ := exists_first? inside
    rw [← firsts.holds, bare] at first
    cases first
  · rintro rfl
    exact firsts.sorted.ext sorted_empty firsts.holds

end HoldsFirsts

theorem holdsFirsts_insertAll (registry name : String) (vs : List Version) :
    ((empty registry name).insertAll vs).1.HoldsFirsts vs :=
  ⟨sorted_insertAll sorted_empty vs, get?_insertAll (empty registry name) vs⟩

/-- A history holds the first version that was inserted under each identifier, whatever the identifiers are and
however they repeat: each insertion is answered by whether it was the first of its identifier, and the versions are
listed, counted and found as the first ones in the order of their identifiers. So versions with different identifiers
make the same history in every order. -/
theorem first_insertion_wins (registry name : String) (vs : List Version) :
    let inserted := (empty registry name).insertAll vs
    (inserted.1.registry = registry ∧ inserted.1.name = name) ∧ FirstWins vs inserted.1 inserted.2 ∧
      ∀ ws, vs.Perm ws → (vs.map (·.id)).Nodup → ((empty registry name).insertAll ws).1 = inserted.1 := by
  intro inserted
  have owner := insertAll_owner (empty registry name) vs
  have firsts := holdsFirsts_insertAll registry name vs
  refine ⟨owner, ?_, fun ws permuted unique => ?_⟩
  · exact {
      holds := firsts.holds
      answers := by simp [inserted, insertAll_adds, empty]
      size := firsts.size_eq
      listed := fun v => firsts.mem_values_iff
      ascending := firsts.ascending
      greatest := fun v => firsts.greatest_iff
      default := firsts.defaultId?_eq
      nothing := firsts.get?_none_eq_none_iff
      found := firsts.get?_text }
  · have owner' := insertAll_owner (empty registry name) ws
    have firsts' := holdsFirsts_insertAll registry name ws
    have versions := firsts'.sorted.ext firsts.sorted fun id => by
      rw [firsts'.holds, firsts.holds, first?_perm permuted unique]
    exact History.ext (owner'.1.trans owner.1.symm) (owner'.2.trans owner.2.symm) versions

/-- Versions of which two have one identifier. -/
def sampleArrivals : List Version :=
  [("10", "a"), ("beta", "b"), ("2", "c"), ("007", "d"), ("2", "e")].map fun (id, text) =>
    ⟨"Shop", "shop.Order", ⟨id⟩, "", .jsonSchemaDraft4, none, ⟨text⟩, ⟨""⟩, ⟨0, 0⟩, ⟨0, 0⟩, .empty⟩

theorem sampleArrivals_first :
    let inserted := (empty "Shop" "shop.Order").insertAll sampleArrivals
    let others := sampleArrivals.take 4
    FirstWins sampleArrivals inserted.1 inserted.2 ∧ inserted.2 = [true, true, true, true, false] ∧
    inserted.1.defaultId? = some ⟨"beta"⟩ ∧
    inserted.1.versions.values.map (·.document.text) = ["c", "d", "a", "b"] ∧
    others.Perm others.reverse ∧ (others.map (·.id)).Nodup ∧
    ((empty "Shop" "shop.Order").insertAll others.reverse).1 = ((empty "Shop" "shop.Order").insertAll others).1 := by
  intro inserted others
  have permuted : others.Perm others.reverse := (List.reverse_perm others).symm
  have unique : (others.map (·.id)).Nodup := by decide
  exact ⟨(first_insertion_wins "Shop" "shop.Order" sampleArrivals).2.1, by decide +kernel, by decide +kernel,
    by decide +kernel, permuted, unique,
    (first_insertion_wins "Shop" "shop.Order" others).2.2 others.reverse permuted unique⟩

end History

end Schemata
