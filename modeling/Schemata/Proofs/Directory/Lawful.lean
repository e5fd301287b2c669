import Schemata.Proofs.Directory.Page
import Schemata.Proofs.Directory.Shelves
import Schemata.Proofs.Instant

/-! Directories whose answers agree with the shelves that they keep. Listing and describing leave the shelves
as they are; what creating and updating do to them is the same for all such directories. -/
namespace Schemata

inductive Shelf.Describes (shelf : Shelf) (name : String) (version : Option String) :
    Except DirectoryError Described → Prop where
  | absent {e : DirectoryError} : (∀ text, version = some text → shelf.get? ⟨text⟩ = none) →
    (version = none → shelf = Table.empty) → Describes shelf name version (.error e)
  | found {d : Described} : d.receipt.name = name →
    shelf.get? ⟨d.receipt.version⟩ = some (some d.content) →
    (∀ text, version = some text → d.receipt.version = text) →
    (version = none → shelf.last? = some (⟨d.receipt.version⟩, some d.content)) →
    Describes shelf name version (.ok d)

/-- What a directory shows: its shelves, and the schema names that a listing of a registry gives. -/
structure Catalog where
  shelf : Shelves
  names : String → List String

structure Catalog.Orderly (c : Catalog) : Prop where
  sorted : ∀ registry name, (c.shelf registry name).Sorted
  readable : ∀ registry name id content, (c.shelf registry name).get? id = some content →
    ∃ text, content = some text
  named : ∀ registry name, c.shelf registry name ≠ Table.empty → name ∈ c.names registry

class LawfulDirectory (σ : Type) [Directory σ] where
  catalog : σ → Catalog
  /-- What calls on an empty directory lead to. -/
  Kept : σ → Prop
  orderly {s : σ} : Kept s → (catalog s).Orderly
  listSchemas_law {now : Instant} {request : ListRequest} {s s' : σ}
    {answer : Except DirectoryError (Page SchemaSummary)} : Kept s →
    Directory.listSchemas now request s = (answer, s') → Kept s' ∧ catalog s' = catalog s ∧
      (request.start = none → (∃ e, answer = .error e) ∨ ∃ items size,
        items.map SchemaSummary.name = (catalog s).names request.registry ∧
          answer = Page.slice items request.token size)
  listVersions_law {registry name : String} {token : Option String} {s s' : σ}
    {answer : Except DirectoryError (Page VersionSummary)} : Kept s →
    Directory.listVersions registry name token s = (answer, s') → Kept s' ∧ catalog s' = catalog s ∧
      ((∃ e, answer = .error e) ∧ (catalog s).shelf registry name = Table.empty ∨ ∃ items size,
        items.map (fun item => VersionId.mk item.version) = ((catalog s).shelf registry name).keys ∧
          answer = Page.slice items token size)
  describe_law {registry name : String} {version : Option String} {s s' : σ}
    {answer : Except DirectoryError Described} : Kept s →
    Directory.describe registry name version s = (answer, s') → Kept s' ∧ catalog s' = catalog s ∧
      ((catalog s).shelf registry name).Describes name version answer
  create_law {now : Instant} {request : PutRequest} {s s' : σ} {answer : Except DirectoryError Receipt} :
    now.Proper → Kept s → Directory.create now request s = (answer, s') →
    Kept s' ∧ (catalog s).shelf.Created request answer (catalog s').shelf
  update_law {now : Instant} {request : PutRequest} {s s' : σ} {answer : Except DirectoryError Receipt} :
    now.Proper → Kept s → Directory.update now request s = (answer, s') →
    Kept s' ∧ (catalog s).shelf.Updated request answer (catalog s').shelf

end Schemata
