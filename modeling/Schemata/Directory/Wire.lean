import Schemata.Directory.Basic

/-!
The directory's records as documents, with the directory's capitalised keys.
-/
namespace Schemata

def nextTokenMember (token : Option String) : List (String × Json) := Json.optional "NextToken" token

namespace ListRequest

def toJson (r : ListRequest) : Json :=
  .object (("RegistryName", .string r.registry) :: Json.optional "SchemaNamePrefix" r.start ++
    nextTokenMember r.token)

def ofWritten? (w : Written) : Option ListRequest := do
  let r ← Record.of? ["RegistryName", "SchemaNamePrefix", "NextToken"] w
  let registry ← r.required "RegistryName" Written.string?
  let start ← r.optional "SchemaNamePrefix" Written.string?
  let token ← r.optional "NextToken" Written.string?
  return { registry, start, token }

end ListRequest

namespace SchemaSummary

def toJson (s : SchemaSummary) : Json :=
  .object [("SchemaArn", .string s.arn), ("SchemaName", .string s.name),
    ("LastModified", s.lastModified.toJson), ("Tags", s.tags.toJson),
    ("VersionCount", .ofWord s.versionCount)]

def ofWritten? (w : Written) : Option SchemaSummary := do
  let r ← Record.of? ["SchemaArn", "SchemaName", "LastModified", "Tags", "VersionCount"] w
  let arn ← r.required "SchemaArn" Written.string?
  let name ← r.required "SchemaName" Written.string?
  let lastModified ← r.required "LastModified" Instant.ofWritten?
  let tags ← r.defaulted "Tags" Table.empty Tags.ofWritten?
  let versionCount ← r.required "VersionCount" Written.word?
  return { arn, name, lastModified, tags, versionCount }

def pageToJson (p : Page SchemaSummary) : Json :=
  .object (("Schemas", .array (p.items.map toJson)) :: nextTokenMember p.next)

def pageOfWritten? (w : Written) : Option (Page SchemaSummary) := do
  let r ← Record.of? ["Schemas", "NextToken"] w
  let items ← r.required "Schemas" (Written.list? ofWritten?)
  let next ← r.optional "NextToken" Written.string?
  return ⟨items, next⟩

end SchemaSummary

namespace VersionSummary

def toJson (s : VersionSummary) : Json :=
  .object [("SchemaArn", .string s.arn), ("SchemaName", .string s.name),
    ("SchemaVersion", .string s.version), ("Type", s.format.toJson)]

def ofWritten? (w : Written) : Option VersionSummary := do
  let r ← Record.of? ["SchemaArn", "SchemaName", "SchemaVersion", "Type"] w
  let arn ← r.required "SchemaArn" Written.string?
  let name ← r.required "SchemaName" Written.string?
  let version ← r.required "SchemaVersion" Written.string?
  let format ← r.required "Type" Format.ofWritten?
  return { arn, name, version, format }

def pageToJson (p : Page VersionSummary) : Json :=
  .object (("SchemaVersions", .array (p.items.map toJson)) :: nextTokenMember p.next)

def pageOfWritten? (w : Written) : Option (Page VersionSummary) := do
  let r ← Record.of? ["SchemaVersions", "NextToken"] w
  let items ← r.required "SchemaVersions" (Written.list? ofWritten?)
  let next ← r.optional "NextToken" Written.string?
  return ⟨items, next⟩

end VersionSummary

namespace PutRequest

def toJson (r : PutRequest) : Json :=
  .object ([("RegistryName", .string r.registry), ("SchemaName", .string r.name),
    ("Content", .string r.content), ("Type", r.format.toJson)] ++
    Json.optional "Description" r.description)

def ofWritten? (w : Written) : Option PutRequest := do
  let r ← Record.of? ["RegistryName", "SchemaName", "Content", "Type", "Description"] w
  let registry ← r.required "RegistryName" Written.string?
  let name ← r.required "SchemaName" Written.string?
  let content ← r.required "Content" Written.string?
  let format ← r.required "Type" Format.ofWritten?
  let description ← r.optional "Description" Written.string?
  return { registry, name, content, format, description }

end PutRequest

namespace Receipt

def keys : List String :=
  ["Description", "LastModified", "SchemaArn", "SchemaName", "SchemaVersion", "Tags", "Type",
    "VersionCreatedDate"]

def members (r : Receipt) : List (String × Json) :=
  Json.optional "Description" r.description ++
    [("LastModified", r.lastModified.toJson), ("SchemaArn", .string r.arn),
     ("SchemaName", .string r.name), ("SchemaVersion", .string r.version), ("Tags", r.tags.toJson),
     ("Type", r.format.toJson), ("VersionCreatedDate", r.createdAt.toJson)]

def toJson (r : Receipt) : Json := .object r.members

def ofRecord? (r : Record) : Option Receipt := do
  let description ← r.optional "Description" Written.string?
  let lastModified ← r.required "LastModified" Instant.ofWritten?
  let arn ← r.required "SchemaArn" Written.string?
  let name ← r.required "SchemaName" Written.string?
  let version ← r.required "SchemaVersion" Written.string?
  let tags ← r.defaulted "Tags" Table.empty Tags.ofWritten?
  let format ← r.required "Type" Format.ofWritten?
  let createdAt ← r.required "VersionCreatedDate" Instant.ofWritten?
  return { description, lastModified, arn, name, version, tags, format, createdAt }

def ofWritten? (w : Written) : Option Receipt := (Record.of? keys w).bind ofRecord?

end Receipt

namespace Described

def toJson (d : Described) : Json := .object (("Content", .string d.content) :: d.receipt.members)

def ofWritten? (w : Written) : Option Described := do
  let r ← Record.of? ("Content" :: Receipt.keys) w
  let content ← r.required "Content" Written.string?
  let receipt ← Receipt.ofRecord? r
  return ⟨content, receipt⟩

end Described

end Schemata
