import Schemata.Directory.Page
import Schemata.Version

/-!
Directories: services that hold the versions of schemas and hand them out in pages.

A directory is a state and five calls on it. A call may change the state even when it fails, and it sees
one reading of the clock. The laws say that following the tokens of a listing comes to an end.
-/
namespace Schemata

def schemaArn (registry name : String) : String := "schema/" ++ registry ++ "/" ++ name

structure ListRequest where
  registry : String
  /-- Only names that start with this are wanted. -/
  start : Option String
  token : Option String
deriving DecidableEq, Repr

structure SchemaSummary where
  arn : String
  name : String
  lastModified : Instant
  tags : Tags
  versionCount : UInt64
deriving DecidableEq, Repr

structure VersionSummary where
  arn : String
  name : String
  version : String
  format : Format
deriving DecidableEq, Repr

structure PutRequest where
  registry : String
  name : String
  content : String
  format : Format
  description : Option String
deriving DecidableEq, Repr

/-- What a directory knows about a version, without its content. -/
structure Receipt where
  description : Option String
  lastModified : Instant
  arn : String
  name : String
  version : String
  tags : Tags
  format : Format
  createdAt : Instant
deriving DecidableEq, Repr

structure Described where
  content : String
  receipt : Receipt
deriving DecidableEq, Repr

def Receipt.toVersion (r : Receipt) (registry : String) (document : Document) : Version where
  registry
  name := r.name
  id := ⟨r.version⟩
  schemaId := r.arn
  format := r.format
  description := r.description
  document
  checksum := document.checksum
  createdAt := r.createdAt
  lastModified := r.lastModified
  tags := r.tags

def Described.toVersion (d : Described) (registry : String) : Version :=
  d.receipt.toVersion registry ⟨d.content⟩

class Directory (σ : Type) where
  listSchemas (now : Instant) (request : ListRequest) (s : σ) :
    Except DirectoryError (Page SchemaSummary) × σ
  listVersions (registry name : String) (token : Option String) (s : σ) :
    Except DirectoryError (Page VersionSummary) × σ
  /-- The version with the given identifier, or the latest one. -/
  describe (registry name : String) (version : Option String) (s : σ) :
    Except DirectoryError Described × σ
  create (now : Instant) (request : PutRequest) (s : σ) : Except DirectoryError Receipt × σ
  /-- Refused as a conflict if the content is that of the latest version. -/
  update (now : Instant) (request : PutRequest) (s : σ) : Except DirectoryError Receipt × σ
  /-- A bound on the schemas still to be listed. -/
  schemasLeft (request : ListRequest) (s : σ) : Nat
  /-- A bound on the versions still to be listed. -/
  versionsLeft (registry name : String) (token : Option String) (s : σ) : Nat
  schemasLeft_lt {now : Instant} {request : ListRequest} {s s' : σ} {page : Page SchemaSummary}
    {token : String} (listed : listSchemas now request s = (.ok page, s'))
    (more : page.next = some token) :
    schemasLeft { request with token := some token } s' < schemasLeft request s
  versionsLeft_lt {registry name : String} {token : Option String} {s s' : σ}
    {page : Page VersionSummary} {next : String}
    (listed : listVersions registry name token s = (.ok page, s')) (more : page.next = some next) :
    versionsLeft registry name (some next) s' < versionsLeft registry name token s
  versionsLeft_describe {registry name registry' name' : String} {token version : Option String}
    {s : σ} : versionsLeft registry name token (describe registry' name' version s).2 =
      versionsLeft registry name token s

end Schemata
