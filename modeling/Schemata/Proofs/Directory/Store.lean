import Schemata.Directory.Store
import Schemata.Proofs.Directory.Folders
import Schemata.Proofs.Directory.Memory

/-! Both kinds of directories obey the laws, and one that nothing has been put into has only empty shelves. -/
namespace Schemata.Store

def shelf : Store → Shelves
  | memory s => s.shelf
  | folders s => s.shelf

def pageSize : Store → Nat
  | memory s => s.pageSize
  | folders s => s.pageSize

/-- The content that a directory describes for a version. -/
def content (s : Store) (registry name version : String) : Option String :=
  (Directory.describe registry name (some version) s).1.toOption.map Described.content

theorem content_eq (s : Store) : s.content = s.shelf.content := by
  funext registry name version
  cases s with
  | memory s => exact s.content_describe registry name version
  | folders s => exact s.content_describe registry name version

def catalog : Store → Catalog
  | memory s => s.catalog
  | folders s => s.catalog

def Kept : Store → Prop
  | memory s => s.Orderly
  | folders s => s.Kept

instance : LawfulDirectory Store where
  catalog := catalog
  Kept := Kept
  orderly {s} kept := by
    cases s with
    | memory s => exact Memory.Orderly.catalog kept
    | folders s => exact Folders.Kept.catalog kept
  listSchemas_law {_ _ s _ _} kept listed := by
    obtain ⟨rfl, rfl⟩ := Prod.mk.inj listed
    cases s with
    | memory s => exact (inferInstance : LawfulDirectory Memory).listSchemas_law kept rfl
    | folders s => exact (inferInstance : LawfulDirectory Folders).listSchemas_law kept rfl
  listVersions_law {_ _ _ s _ _} kept listed := by
    obtain ⟨rfl, rfl⟩ := Prod.mk.inj listed
    cases s with
    | memory s => exact (inferInstance : LawfulDirectory Memory).listVersions_law kept rfl
    | folders s => exact (inferInstance : LawfulDirectory Folders).listVersions_law kept rfl
  describe_law {_ _ _ s _ _} kept described := by
    obtain ⟨rfl, rfl⟩ := Prod.mk.inj described
    cases s with
    | memory s => exact (inferInstance : LawfulDirectory Memory).describe_law kept rfl
    | folders s => exact (inferInstance : LawfulDirectory Folders).describe_law kept rfl
  create_law {_ _ s _ _} proper kept created := by
    obtain ⟨rfl, rfl⟩ := Prod.mk.inj created
    cases s with
    | memory s => exact (inferInstance : LawfulDirectory Memory).create_law proper kept rfl
    | folders s => exact (inferInstance : LawfulDirectory Folders).create_law proper kept rfl
  update_law {_ _ s _ _} proper kept updated := by
    obtain ⟨rfl, rfl⟩ := Prod.mk.inj updated
    cases s with
    | memory s => exact (inferInstance : LawfulDirectory Memory).update_law proper kept rfl
    | folders s => exact (inferInstance : LawfulDirectory Folders).update_law proper kept rfl

theorem shelf_catalog (s : Store) : (LawfulDirectory.catalog s).shelf = s.shelf := by cases s <;> rfl

/-- Nothing has been put into the directory: no schema is known, or there is nothing below the root. -/
def Blank : Store → Prop
  | memory s => s.registries = Table.empty
  | folders s => ∀ path entries, s.tree.folder? (s.root ++ path) = some entries → entries = Table.empty

section
variable {s : Store} (blank : s.Blank)
include blank

theorem Blank.shelf (registry name : String) : s.shelf registry name = Table.empty := by
  cases s with
  | memory s =>
    have none : s.registries = Table.empty := blank
    refine Memory.shelf_of_unknown ?_
    rw [Memory.versions?, Memory.registry, none]
    rfl
  | folders s =>
    cases there : s.schemaFolder? registry name with
    | none => exact Folders.shelf_of_missing there
    | some entries =>
      by_cases storable : Folders.Storable registry name
      · have none : entries = Table.empty := blank [registry, name] entries there
        refine (Folders.shelf_of_folder storable there).trans ?_
        rw [none]
        rfl
      · exact Folders.shelf_of_refused storable

theorem Blank.kept : s.Kept := by
  cases s with
  | memory s =>
    have none : s.registries = Table.empty := blank
    have unknown (registry : String) : s.registry registry = Table.empty := by
      rw [Memory.registry, none]
      rfl
    refine ⟨fun registry => ?_, fun registry name found known => ?_⟩
    · rw [unknown]
      exact Table.sorted_empty
    · rw [Memory.versions?, unknown] at known
      cases known
  | folders s =>
    refine ⟨fun path entries there => ?_, fun registry name id content found => ?_⟩
    · rw [blank path entries there]
      exact Table.sorted_empty
    · have bare : s.files registry name = Table.empty := by
        rw [Folders.files]
        cases there : s.schemaFolder? registry name with
        | none => rfl
        | some entries =>
          rw [blank [registry, name] entries there]
          rfl
      rw [bare] at found
      cases found

end

end Schemata.Store
