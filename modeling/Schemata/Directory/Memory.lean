import Schemata.Directory.Basic

/-!
A directory in memory. Versions are numbered from 1 for each schema; the calls made are counted, and
writing can be switched off with a reason.
-/
namespace Schemata

namespace Memory

structure Stored where
  content : String
  description : Option String
  format : Format
  createdAt : Instant
deriving DecidableEq, Repr

abbrev Versions := Table VersionId Stored

structure Calls where
  listSchemas : Nat
  listVersions : Nat
  describe : Nat
  create : Nat
  update : Nat
deriving DecidableEq, Repr

end Memory

open Memory

structure Memory where
  registries : Table String (Table String Versions)
  pageSize : Nat
  calls : Calls
  refusal : Option String
deriving DecidableEq, Repr

namespace Memory

def empty (pageSize : Nat) : Memory := ⟨Table.empty, pageSize, ⟨0, 0, 0, 0, 0⟩, none⟩

def registry (s : Memory) (registry : String) : Table String Versions :=
  (s.registries.get? registry).getD Table.empty

def versions? (s : Memory) (registry name : String) : Option Versions :=
  (s.registry registry).get? name

def putVersions (s : Memory) (registry name : String) (versions : Versions) : Memory :=
  { s with
    registries := s.registries.insert registry ((s.registry registry).insert name versions) }

/-- Stores a version under an identifier of the caller's choice. -/
def insertVersion (s : Memory) (now : Instant) (registry name version content : String) : Memory :=
  let versions := (s.versions? registry name).getD Table.empty
  s.putVersions registry name
    (versions.insert ⟨version⟩ ⟨content, none, .jsonSchemaDraft4, now⟩)

def versionCount (s : Memory) (registry name : String) : Nat :=
  ((s.versions? registry name).map Table.size).getD 0

/-- When the newest version was created. -/
def lastModified? (versions : Versions) : Option Instant :=
  match versions.values.map (·.createdAt) with
  | [] => none
  | t :: rest => some (rest.foldl Instant.later t)

def receipt (now : Instant) (registry name : String) (versions : Versions) (id : VersionId)
    (stored : Stored) : Receipt where
  description := stored.description
  lastModified := (lastModified? versions).getD now
  arn := schemaArn registry name
  name
  version := id.text
  tags := Table.empty
  format := stored.format
  createdAt := stored.createdAt

def notFound (name : String) (version : Option String) : DirectoryError :=
  .notFound name (version.getD "latest")

/-- The schemas of a registry whose names start as wanted. -/
def wanted (s : Memory) (request : ListRequest) : List (String × Versions) :=
  (s.registry request.registry).entries.filter fun entry =>
    match request.start with
    | some start => (Text.dropLead? start.toList entry.1.toList).isSome
    | none => true

def summary (now : Instant) (registry : String) (entry : String × Versions) : SchemaSummary where
  arn := schemaArn registry entry.1
  name := entry.1
  lastModified := (lastModified? entry.2).getD now
  tags := Table.empty
  versionCount := .ofNat entry.2.size

def listSchemas (now : Instant) (request : ListRequest) (s : Memory) :
    Except DirectoryError (Page SchemaSummary) × Memory :=
  (Page.slice ((s.wanted request).map (summary now request.registry)) request.token s.pageSize,
    { s with calls.listSchemas := s.calls.listSchemas + 1 })

def versionSummaries (registry name : String) (versions : Versions) : List VersionSummary :=
  versions.entries.map fun entry =>
    ⟨schemaArn registry name, name, entry.1.text, entry.2.format⟩

def listVersions (registry name : String) (token : Option String) (s : Memory) :
    Except DirectoryError (Page VersionSummary) × Memory :=
  (match s.versions? registry name with
    | none => .error (notFound name none)
    | some versions => Page.slice (versionSummaries registry name versions) token s.pageSize,
    { s with calls.listVersions := s.calls.listVersions + 1 })

def describe (registry name : String) (version : Option String) (s : Memory) :
    Except DirectoryError Described × Memory :=
  (match s.versions? registry name with
    | none => .error (notFound name version)
    | some versions =>
      let found := match version with
        | some id => (versions.get? ⟨id⟩).map fun stored => (VersionId.mk id, stored)
        | none => versions.last?
      match found with
      | none => .error (notFound name version)
      | some (id, stored) =>
        .ok ⟨stored.content, receipt stored.createdAt registry name versions id stored⟩,
    { s with calls.describe := s.calls.describe + 1 })

/-- Adds the requested version under an identifier. -/
def write (now : Instant) (request : PutRequest) (versions : Versions) (id : VersionId)
    (s : Memory) : Except DirectoryError Receipt × Memory :=
  let stored : Stored := ⟨request.content, request.description, request.format, now⟩
  let versions := versions.insert id stored
  (.ok (receipt now request.registry request.name versions id stored),
    s.putVersions request.registry request.name versions)

def create (now : Instant) (request : PutRequest) (s : Memory) :
    Except DirectoryError Receipt × Memory :=
  let s := { s with calls.create := s.calls.create + 1 }
  match s.refusal with
  | some reason => (.error (.rejected reason), s)
  | none =>
    match s.versions? request.registry request.name with
    | some _ => (.error (.rejected ("schema " ++ request.name ++ " already exists")), s)
    | none => write now request Table.empty .first s

def update (now : Instant) (request : PutRequest) (s : Memory) :
    Except DirectoryError Receipt × Memory :=
  let s := { s with calls.update := s.calls.update + 1 }
  match s.refusal with
  | some reason => (.error (.rejected reason), s)
  | none =>
    match s.versions? request.registry request.name with
    | none => (.error (notFound request.name none), s)
    | some versions =>
      match versions.last? with
      | none => write now request versions .first s
      | some (id, latest) =>
        if Checksum.ofText latest.content = Checksum.ofText request.content then
          (.error (.conflict request.name), s)
        else write now request versions id.next s

def schemasLeft (request : ListRequest) (s : Memory) : Nat :=
  Page.remaining (s.wanted request).length request.token

def versionsLeft (registry name : String) (token : Option String) (s : Memory) : Nat :=
  Page.remaining ((s.versions? registry name).getD Table.empty).size token

theorem schemasLeft_lt {now : Instant} {request : ListRequest} {s s' : Memory}
    {page : Page SchemaSummary} {token : String}
    (listed : listSchemas now request s = (.ok page, s')) (more : page.next = some token) :
    schemasLeft { request with token := some token } s' < schemasLeft request s := by
  obtain ⟨sliced, rfl⟩ := Prod.mk.inj listed
  simpa [schemasLeft, wanted, registry] using Page.remaining_slice_lt sliced more

theorem versionsLeft_lt {registry name : String} {token : Option String} {s s' : Memory}
    {page : Page VersionSummary} {next : String}
    (listed : listVersions registry name token s = (.ok page, s')) (more : page.next = some next) :
    versionsLeft registry name (some next) s' < versionsLeft registry name token s := by
  obtain ⟨sliced, rfl⟩ := Prod.mk.inj listed
  cases found : s.versions? registry name with
  | none => simp [found] at sliced
  | some versions =>
    simp only [found] at sliced
    have fewer := Page.remaining_slice_lt sliced more
    have same : versions? { s with calls.listVersions := s.calls.listVersions + 1 } registry name =
        some versions := found
    simpa [versionsLeft, found, same, versionSummaries, Table.size] using fewer

instance : Directory Memory where
  listSchemas := listSchemas
  listVersions := listVersions
  describe := describe
  create := create
  update := update
  schemasLeft := schemasLeft
  versionsLeft := versionsLeft
  schemasLeft_lt := schemasLeft_lt
  versionsLeft_lt := versionsLeft_lt
  versionsLeft_describe := rfl

end Memory

end Schemata
