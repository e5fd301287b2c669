import Schemata.Directory.Basic
import Schemata.Proofs.Table
import Schemata.Proofs.Version.Order

/-! What a directory holds, apart from how it holds it: for every schema a shelf of versions. Creating and
updating a schema are described once by what they do to the shelves. -/
namespace Schemata

/-- The versions of one schema with their contents; one that cannot be read has none. -/
abbrev Shelf := Table VersionId (Option String)

/-- A shelf for every registry and schema name; almost all are empty. -/
abbrev Shelves := String → String → Shelf

namespace Shelves

def put (shelves : Shelves) (request : PutRequest) (id : VersionId) : Shelves := fun registry name =>
  if registry = request.registry ∧ name = request.name then
    (shelves registry name).insert id (some request.content)
  else shelves registry name

inductive Updated (request : PutRequest) (before : Shelves) :
    Except DirectoryError Receipt → Shelves → Prop where
  | refused {e : DirectoryError} : (∀ name, e ≠ .conflict name) → Updated request before (.error e) before
  | unchanged {id : VersionId} {text : String} :
    (before request.registry request.name).last? = some (id, some text) →
    Checksum.ofText text = Checksum.ofText request.content →
    Updated request before (.error (.conflict request.name)) before
  | added {id : VersionId} {text : String} {receipt : Receipt} :
    (before request.registry request.name).last? = some (id, some text) →
    Checksum.ofText text ≠ Checksum.ofText request.content →
    receipt.name = request.name → receipt.version = id.next.text →
    Updated request before (.ok receipt) (before.put request id.next)

inductive Created (request : PutRequest) (before : Shelves) :
    Except DirectoryError Receipt → Shelves → Prop where
  | refused {e : DirectoryError} : Created request before (.error e) before
  | added {receipt : Receipt} : before request.registry request.name = Table.empty →
    receipt.name = request.name → receipt.version = VersionId.first.text →
    Created request before (.ok receipt) (before.put request .first)

def Roomy (shelves : Shelves) : Prop := ∀ registry name, (shelves registry name).size < 18446744073709551615

/-- The content of a version, if it is there and can be read. -/
def content (shelves : Shelves) (registry name version : String) : Option String :=
  ((shelves registry name).get? ⟨version⟩).join

theorem get?_put (shelves : Shelves) (request : PutRequest) (id : VersionId) (registry name : String)
    (other : VersionId) : (shelves.put request id registry name).get? other =
      if registry = request.registry ∧ name = request.name ∧ other = id then some (some request.content)
      else (shelves registry name).get? other := by
  unfold put
  by_cases schema : registry = request.registry ∧ name = request.name
  · rw [if_pos schema]
    by_cases same : other = id
    · rw [same, Table.get?_insert_same, if_pos ⟨schema.1, schema.2, rfl⟩]
    · rw [Table.get?_insert_other same, if_neg fun all => same all.2.2]
  · rw [if_neg schema, if_neg fun all => schema ⟨all.1, all.2.1⟩]

theorem content_put (shelves : Shelves) (request : PutRequest) (id : VersionId)
    (registry name version : String) : (shelves.put request id).content registry name version =
      if registry = request.registry ∧ name = request.name ∧ version = id.text then some request.content
      else shelves.content registry name version := by
  have same : (⟨version⟩ : VersionId) = id ↔ version = id.text :=
    ⟨fun equal => congrArg VersionId.text equal, fun equal => congrArg VersionId.mk equal⟩
  simp only [content, get?_put, same]
  split
  · rfl
  · rfl

end Shelves

end Schemata
