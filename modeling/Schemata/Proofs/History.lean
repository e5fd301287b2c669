import Schemata.History
import Schemata.Proofs.Directory.Numbering

/-! Histories that agree with the shelves of a directory: each version that they hold is on its shelf, with
the text of its document. -/
namespace Schemata

open Table

/-- The version is on the shelf of its schema, with its document. -/
def Version.OnShelf (v : Version) (shelves : Shelves) : Prop :=
  (shelves v.registry v.name).get? v.id = some (some v.document.text)

namespace History

/-- All versions are those of one schema, each under its own identifier and on its shelf. -/
structure Mirrors (h : History) (registry name : String) (shelves : Shelves) : Prop where
  sorted : h.versions.Sorted
  own : ∀ id v, h.versions.get? id = some v → v.registry = registry ∧ v.name = name ∧ v.id = id
  onShelf : ∀ id v, h.versions.get? id = some v → v.OnShelf shelves

def Has (h : History) (id : VersionId) : Prop := ∃ v, h.versions.get? id = some v

theorem mirrors_empty (registry name : String) (shelves : Shelves) :
    (empty registry name).Mirrors registry name shelves :=
  ⟨sorted_empty, nofun, nofun⟩

/-- The history holds all that is on the shelf, and nothing else. -/
structure Whole (h : History) (registry name : String) (shelves : Shelves) : Prop where
  mirrors : h.Mirrors registry name shelves
  complete : ∀ id, (shelves registry name).get? id ≠ none → h.Has id

theorem whole_empty {registry name : String} {shelves : Shelves} (bare : shelves registry name = Table.empty) :
    (empty registry name).Whole registry name shelves where
  mirrors := mirrors_empty _ _ _
  complete id present := by
    rw [bare] at present
    exact absurd rfl present

section
variable {h : History} {registry name : String} {shelves : Shelves} {v : Version}

theorem has_insert (h : History) (v : Version) (id : VersionId) :
    (h.insert v).1.Has id ↔ h.Has id ∨ id = v.id := by
  unfold insert Has contains
  cases taken : h.versions.get? v.id with
  | some kept =>
    refine (or_iff_left_of_imp ?_).symm
    rintro rfl
    exact ⟨kept, taken⟩
  | none =>
    by_cases same : id = v.id
    · simp [same]
    · simp [same, get?_insert_other same]

variable (mirrors : h.Mirrors registry name shelves)
include mirrors

theorem Mirrors.insert (ofRegistry : v.registry = registry) (ofSchema : v.name = name)
    (here : v.OnShelf shelves) : (h.insert v).1.Mirrors registry name shelves := by
  unfold History.insert
  split
  · exact mirrors
  · refine ⟨sorted_insert mirrors.sorted _ _, fun id w set => ?_, fun id w set => ?_⟩
    · rcases of_get?_insert set with ⟨rfl, rfl⟩ | old
      · exact ⟨ofRegistry, ofSchema, rfl⟩
      · exact mirrors.own id w old
    · rcases of_get?_insert set with ⟨rfl, rfl⟩ | old
      · exact here
      · exact mirrors.onShelf id w old

theorem Mirrors.extends {later : Shelves} (grown : later.Extends shelves) :
    h.Mirrors registry name later where
  sorted := mirrors.sorted
  own := mirrors.own
  onShelf id v found := grown _ _ _ _ (mirrors.onShelf id v found)

/-- A history that has the greatest version of its schema has it as its default. -/
theorem Mirrors.default {id : VersionId} {content : Option String} (sorted : (shelves registry name).Sorted)
    (greatest : (shelves registry name).last? = some (id, content)) (present : h.Has id) :
    ∃ kept, h.versions.get? id = some kept ∧ h.versions.last? = some (id, kept) ∧
      content = some kept.document.text := by
  obtain ⟨kept, found⟩ := present
  have shelved {other : VersionId} {w : Version} (inside : h.versions.get? other = some w) :
      (shelves registry name).get? other = some (some w.document.text) := by
    obtain ⟨rfl, rfl, rfl⟩ := mirrors.own other w inside
    exact mirrors.onShelf _ w inside
  obtain ⟨there, above⟩ := sorted.last?_eq_some_iff.mp greatest
  refine ⟨kept, found, mirrors.sorted.last?_eq_some_iff.mpr ⟨found, fun other w inside => ?_⟩, ?_⟩
  · exact above other _ (shelved inside)
  · rw [shelved found, Option.some.injEq] at there
    exact there.symm

end

end History

end Schemata
