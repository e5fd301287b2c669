import Schemata.Proofs.Directory.Filed
import Schemata.Proofs.Directory.Store
import Schemata.Proofs.Registry.Agreement
import Schemata.Proofs.Registry.Gathering

/-! Which schemas a registry lists once it has been loaded: those of the directory whose names start as wanted,
and those of its registered models. -/
namespace Schemata

theorem ListRequest.wants_iff (request : ListRequest) (name : String) :
    request.wants name = true ↔ ∀ start, request.start = some start → start.toList <+: name.toList := by
  unfold wants
  cases request.start with
  | none => simp
  | some start =>
    simp only [Option.isSome_iff_exists, Text.dropLead?_eq_some, Option.some.injEq, forall_eq']
    exact ⟨fun ⟨rest, parts⟩ => ⟨rest, parts.symm⟩, fun ⟨rest, parts⟩ => ⟨rest, parts.symm⟩⟩

namespace Store

/-- The names of the schemas that a request wants. -/
def wanted (s : Store) (request : ListRequest) : List String :=
  ((LawfulDirectory.catalog s).names request.registry).filter request.wants

theorem listSchemas_wanted {s s' : Store} {now : Instant} {request : ListRequest} {page : Page SchemaSummary}
    (listed : Directory.listSchemas now request s = (.ok page, s')) :
    LawfulDirectory.catalog s' = LawfulDirectory.catalog s ∧ s'.pageSize = s.pageSize ∧
      Page.slice (s.wanted request) request.token s.pageSize = .ok (page.map (·.name)) := by
  obtain ⟨answer, rfl⟩ := Prod.mk.inj listed
  -- What is cut into pages are the summaries, and they have the names of the wanted schemas.
  have named {items : List SchemaSummary} {size : Nat} (names : items.map (·.name) = s.wanted request)
      (sliced : Page.slice items request.token size = .ok page) :
      Page.slice (s.wanted request) request.token size = .ok (page.map (·.name)) := by
    rw [← names, Page.slice_map, sliced]
    rfl
  cases s with
  | memory s =>
    refine ⟨rfl, rfl, named ?_ answer⟩
    change _ = (s.catalog.names request.registry).filter request.wants
    simp only [Memory.catalog, Table.keys, List.filter_map, List.map_map]
    rfl
  | folders s =>
    refine ⟨rfl, rfl, ?_⟩
    change (Folders.listSchemas now request s).1 = .ok page at answer
    unfold Folders.listSchemas at answer
    dsimp only at answer
    split at answer
    · cases answer
    · split at answer
      · cases answer
      · rename_i summaries collected
        refine named ?_ answer
        change _ = (s.catalog.names request.registry).filter request.wants
        rw [Folders.map_collect (fun _ _ => Folders.name_summary) collected, Folders.wanted_eq]
        simp only [Folders.catalog, Folders.schemaFolders, List.filter_map]
        rfl

theorem mem_wanted {s : Store} (kept : s.Kept) {registry name : String} (filled : s.shelf registry name ≠ Table.empty)
    (start token : Option String) :
    name ∈ s.wanted ⟨registry, start, token⟩ ↔ (⟨registry, start, token⟩ : ListRequest).wants name = true := by
  have named := (LawfulDirectory.orderly kept).named registry name (by rw [s.shelf_catalog]; exact filled)
  simp only [wanted, List.mem_filter, named, true_and]

end Store

namespace Registry

theorem shows_wanted (s : Store) (now : Instant) (request : ListRequest) : Shows now request s.pageSize
    (fun t : Store => LawfulDirectory.catalog t = LawfulDirectory.catalog s ∧ t.pageSize = s.pageSize)
    (fun t => t.wanted request) (fun t => t.wanted request) where
  call {_ t t' _} same listed := by
    obtain ⟨still, size, sliced⟩ := Store.listSchemas_wanted listed
    have shown : t'.wanted request = t.wanted request := by rw [Store.wanted, still, Store.wanted]
    refine ⟨⟨still.trans same.1, size.trans same.2⟩, ?_, shown ▸ .refl _, shown⟩
    rw [← same.2]
    exact sliced

/-- A registry that has been loaded lists the wanted schemas and those of its registered models, though some calls
of the directory may fail at other times. -/
theorem load_lists {r r' : Registry} {s s' : Faulty Store} {now : Instant} (loaded : r.load now s = (.ok (), r', s')) :
    r'.listed.Sorted ∧ ∀ name, name ∈ r'.schemaNames ↔
      name ∈ s.behind.wanted ⟨r.name, r.start, none⟩ ∨ ∃ v ∈ r.models.values, v.name = name := by
  have passed := Faulty.readsAs_behind.drainNames now ⟨r.name, r.start, none⟩ Table.empty (s := s) rfl
  cases loads_of_load loaded with
  | @listed found _ drained =>
    rw [drained] at passed
    obtain ⟨t, drained', -⟩ := passed.ok
    have plain : r.load now s.behind = (.ok (), { r with
        listed := found.addAll (r.models.values.map (·.name))
        histories := Table.empty }, t) := by rw [load, drained']
    obtain ⟨⟨still, -⟩, sorted, names, all, only, lists⟩ :=
      (shows_wanted s.behind now ⟨r.name, r.start, none⟩).load ⟨rfl, rfl⟩ plain
    rw [Store.wanted, still, ← Store.wanted] at only
    exact ⟨sorted, fun name => (lists name).trans (or_congr_left ⟨fun among => only among, fun wanted => all wanted⟩)⟩

end Registry

end Schemata
