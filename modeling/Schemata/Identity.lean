import Schemata.Json.Record
import Schemata.Text.Quoted
import Schemata.Text.Split

/-!
Identities: the address of one version of one schema in one registry, and the correlation texts
`registry/schema:version` that carry it. A text without a slash leaves the registry to a default.

The registry has no slash and the version no colon, so a correlation is cut at its first slash and its
last colon.
-/
namespace Schemata

structure Identity where
  registry : String
  schema : String
  version : String
deriving DecidableEq, Repr

namespace Identity

inductive Fault where
  | emptyPart (parts : Identity)
  | slashInRegistry (registry : String)
  | colonInVersion (version : String)
deriving DecidableEq, Repr

def Fault.message : Fault → String
  | .emptyPart parts =>
    "registry, schema name and version must be non-empty: SchemaIdentity \x7b registry: " ++
      Text.quoted parts.registry ++ ", schema_name: " ++ Text.quoted parts.schema ++
      ", version: " ++ Text.quoted parts.version ++ " \x7d"
  | .slashInRegistry registry => "registry " ++ Text.quoted registry ++ " must not contain '/'"
  | .colonInVersion version => "version " ++ Text.quoted version ++ " must not contain ':'"

/-- The identity with the given parts: none is empty, the registry has no slash, the version no colon. -/
def make (registry schema version : String) : Except Fault Identity :=
  if registry = "" ∨ schema = "" ∨ version = "" then .error (.emptyPart ⟨registry, schema, version⟩)
  else if '/' ∈ registry.toList then .error (.slashInRegistry registry)
  else if ':' ∈ version.toList then .error (.colonInVersion version)
  else .ok ⟨registry, schema, version⟩

def correlation (id : Identity) : String := id.registry ++ "/" ++ id.schema ++ ":" ++ id.version

/-- The identity that a correlation text spells, with its registry or in the default one.
There is none if the text spells no identity. -/
def parse? (defaultRegistry text : String) : Option Identity :=
  let (registry, rest) := match Text.splitFirst? '/' text.toList with
    | some (registry, rest) => (String.ofList registry, rest)
    | none => (defaultRegistry, text.toList)
  match Text.splitLast? ':' rest with
  | some (schema, version) =>
    (make registry (String.ofList schema) (String.ofList version)).toOption
  | none => none

def ofText? (text : String) : Option Identity :=
  if '/' ∈ text.toList then parse? "" text else none

def toJson (id : Identity) : Json :=
  .object [("registry", .string id.registry), ("schema_name", .string id.schema),
    ("version", .string id.version)]

/-- Reads the three parts as they are, without asking whether they make an identity. -/
def ofWritten? (w : Written) : Option Identity := do
  let r ← Record.of? ["registry", "schema_name", "version"] w
  let registry ← r.required "registry" Written.string?
  let schema ← r.required "schema_name" Written.string?
  let version ← r.required "version" Written.string?
  return ⟨registry, schema, version⟩

end Identity

end Schemata
