import Schemata.Document
import Schemata.Identity
import Schemata.Instant
import Schemata.Table
import Schemata.Version.Id

/-!
One immutable version of a schema, with what its directory says about it.
-/
namespace Schemata

abbrev Tags := Table String String

namespace Tags

def toJson (tags : Tags) : Json := .object (tags.entries.map fun (k, v) => (k, .string v))

/-- Reads an object of texts; of two tags with one name the later counts. -/
def ofWritten? (w : Written) : Option Tags := (w.entries? Written.string?).map Table.ofList

end Tags

def Instant.toJson (t : Instant) : Json := .string t.text

def Instant.ofWritten? (w : Written) : Option Instant := w.string?.bind Instant.ofText?

structure Version where
  registry : String
  name : String
  id : VersionId
  schemaId : String
  format : Format
  description : Option String
  document : Document
  checksum : Checksum
  createdAt : Instant
  lastModified : Instant
  tags : Tags
deriving DecidableEq, Repr

namespace Version

/-- The address of the version. -/
def identity (v : Version) : Except Identity.Fault Identity :=
  Identity.make v.registry v.name v.id.text

def toJson (v : Version) : Json :=
  .object [
    ("registry", .string v.registry),
    ("name", .string v.name),
    ("version", .string v.id.text),
    ("schema_id", .string v.schemaId),
    ("format", v.format.toJson),
    ("description", (v.description.map Json.string).getD .null),
    ("document", .string v.document.text),
    ("checksum", .string v.checksum.hex),
    ("created_at", v.createdAt.toJson),
    ("last_modified", v.lastModified.toJson),
    ("tags", v.tags.toJson)]

def ofWritten? (w : Written) : Option Version := do
  let r ← Record.of? ["registry", "name", "version", "schema_id", "format", "description", "document",
    "checksum", "created_at", "last_modified", "tags"] w
  let registry ← r.required "registry" Written.string?
  let name ← r.required "name" Written.string?
  let id ← r.required "version" Written.string?
  let schemaId ← r.required "schema_id" Written.string?
  let format ← r.required "format" Format.ofWritten?
  let description ← r.optional "description" Written.string?
  let document ← r.required "document" Written.string?
  let checksum ← r.required "checksum" Written.string?
  let createdAt ← r.required "created_at" Instant.ofWritten?
  let lastModified ← r.required "last_modified" Instant.ofWritten?
  let tags ← r.defaulted "tags" Table.empty Tags.ofWritten?
  return { registry, name, id := ⟨id⟩, schemaId, format, description, document := ⟨document⟩,
           checksum := ⟨checksum⟩, createdAt, lastModified, tags }

end Version

end Schemata
