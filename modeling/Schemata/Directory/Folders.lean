import Schemata.Directory.Wire
import Schemata.FileTree
import Schemata.Json.Reader

/-!
A directory of files: below a root, `registry/schema/version.json` holds what is known about a version, as
an indented document.

Registry and schema names are used as the names of folders, so those that could lead elsewhere are refused.
-/
namespace Schemata

structure Folders where
  tree : FileTree
  root : FilePath
  pageSize : Nat

namespace Folders

/-- Whether a name can be that of a folder: it is not empty, does not start with a point and has neither
kind of slash. -/
def isComponent (name : String) : Bool :=
  match name.toList with
  | [] => false
  | '.' :: _ => false
  | cs => '/' ∉ cs && '\\' ∉ cs

def checkComponent (name : String) : Except DirectoryError Unit :=
  if isComponent name then .ok ()
  else .error (.rejected (Text.quoted name ++ " cannot be stored as a directory name"))

/-- The folder of a schema. -/
def schemaPath (s : Folders) (registry name : String) : Except DirectoryError FilePath := do
  checkComponent registry
  checkComponent name
  return s.root ++ [registry, name]

def suffix : List Char := ['j', 's', 'o', 'n']

/-- The version identifier that a file name stands for: what is before its last point, if `json` is after
it. -/
def fileVersion? (fileName : String) : Option VersionId :=
  match Text.splitLast? '.' fileName.toList with
  | some (stem, ending) => if stem ≠ [] ∧ ending = suffix then some ⟨String.ofList stem⟩ else none
  | none => none

def versionFile (id : VersionId) : String := id.text ++ ".json"

/-- The version files of a schema's folder, oldest first. -/
def stored (entries : Table String FileTree) : Table VersionId FileContent :=
  .ofList (entries.entries.filterMap fun
    | (name, .file content) => (fileVersion? name).map fun id => (id, content)
    | (_, .folder _) => none)

/-- What a version file says. -/
def read : FileContent → Except DirectoryError Described
  | .binary _ => .error (.io "not valid UTF-8")
  | .text s =>
    match (Written.ofText? s).bind Described.ofWritten? with
    | some described => .ok described
    | none => .error (.json "not a stored version")

def notFound (name : String) (version : Option String) : DirectoryError :=
  .notFound name (version.getD "latest")

/-- The schema folders of a registry whose names start as wanted. -/
def wanted (s : Folders) (request : ListRequest) : List (String × Table String FileTree) :=
  match s.tree.folder? (s.root ++ [request.registry]) with
  | none => []
  | some entries => entries.entries.filterMap fun
    | (name, .folder inner) =>
      match request.start with
      | some start =>
        if (Text.dropLead? start.toList name.toList).isSome then some (name, inner) else none
      | none => some (name, inner)
    | (_, .file _) => none

/-- A schema was modified when its latest version says; one without versions just now. -/
def summary (now : Instant) (registry : String) (entry : String × Table String FileTree) :
    Except DirectoryError SchemaSummary :=
  let versions := stored entry.2
  let made (lastModified : Instant) : SchemaSummary :=
    ⟨schemaArn registry entry.1, entry.1, lastModified, Table.empty, .ofNat versions.size⟩
  match versions.last? with
  | none => .ok (made now)
  | some (_, content) =>
    match read content with
    | .ok described => .ok (made described.receipt.lastModified)
    | .error e => .error e

def collect (f : α → Except DirectoryError β) : List α → Except DirectoryError (List β)
  | [] => .ok []
  | a :: rest =>
    match f a with
    | .error e => .error e
    | .ok b =>
      match collect f rest with
      | .error e => .error e
      | .ok more => .ok (b :: more)

theorem length_collect {f : α → Except DirectoryError β} {xs : List α} {ys : List β}
    (h : collect f xs = .ok ys) : ys.length = xs.length := by
  induction xs generalizing ys with
  | nil => simp_all [collect]
  | cons a rest ih =>
    unfold collect at h
    split at h
    · simp at h
    · split at h
      · simp at h
      · rename_i more hm
        cases h
        simp [ih hm]

def listSchemas (now : Instant) (request : ListRequest) (s : Folders) :
    Except DirectoryError (Page SchemaSummary) × Folders :=
  (match checkComponent request.registry with
    | .error e => .error e
    | .ok _ =>
      match collect (summary now request.registry) (s.wanted request) with
      | .error e => .error e
      | .ok summaries => Page.slice summaries request.token s.pageSize,
    s)

/-- The version files of a schema, if it has a folder. -/
def versions? (s : Folders) (registry name : String) :
    Except DirectoryError (Option (Table VersionId FileContent)) :=
  match s.schemaPath registry name with
  | .error e => .error e
  | .ok path => .ok ((s.tree.folder? path).map stored)

def versionSummary (content : FileContent) : Except DirectoryError VersionSummary :=
  match read content with
  | .error e => .error e
  | .ok ⟨_, r⟩ => .ok ⟨r.arn, r.name, r.version, r.format⟩

/-- Reads every version file, whichever page is wanted. -/
def listVersions (registry name : String) (token : Option String) (s : Folders) :
    Except DirectoryError (Page VersionSummary) × Folders :=
  (match s.versions? registry name with
    | .error e => .error e
    | .ok none => .error (notFound name none)
    | .ok (some versions) =>
      match collect versionSummary versions.values with
      | .error e => .error e
      | .ok summaries => Page.slice summaries token s.pageSize,
    s)

def describe (registry name : String) (version : Option String) (s : Folders) :
    Except DirectoryError Described × Folders :=
  (match s.versions? registry name with
    | .error e => .error e
    | .ok none => .error (notFound name version)
    | .ok (some versions) =>
      let found := match version with
        | some id => versions.get? ⟨id⟩
        | none => versions.last?.map (·.2)
      match found with
      | none => .error (notFound name version)
      | some content => read content,
    s)

/-- Makes the schema's folder and writes the requested version into it. -/
def write (now : Instant) (request : PutRequest) (id : VersionId) (s : Folders) :
    Except DirectoryError Receipt × Folders :=
  let receipt : Receipt :=
    { description := request.description, lastModified := now,
      arn := schemaArn request.registry request.name, name := request.name, version := id.text,
      tags := Table.empty, format := request.format, createdAt := now }
  let path := s.root ++ [request.registry, request.name]
  if path.any fun name => '\x00' ∈ name.toList then (.error (.io "name with a NUL"), s)
  else
    match s.tree.makeFolders path with
    | (tree, false) => (.error (.io "folder cannot be made"), { s with tree })
    | (tree, true) =>
      let text := (Described.toJson ⟨request.content, receipt⟩).prettyText
      match tree.writeFile? (.text text) (path ++ [versionFile id]) with
      | none => (.error (.io "file cannot be written"), { s with tree })
      | some tree => (.ok receipt, { s with tree })

def create (now : Instant) (request : PutRequest) (s : Folders) :
    Except DirectoryError Receipt × Folders :=
  match s.versions? request.registry request.name with
  | .error e => (.error e, s)
  | .ok found =>
    if (found.map Table.size).getD 0 = 0 then write now request .first s
    else (.error (.rejected ("schema " ++ request.name ++ " already exists")), s)

def update (now : Instant) (request : PutRequest) (s : Folders) :
    Except DirectoryError Receipt × Folders :=
  match s.versions? request.registry request.name with
  | .error e => (.error e, s)
  | .ok found =>
    match found.bind Table.last? with
    | none => (.error (notFound request.name none), s)
    | some (id, content) =>
      match read content with
      | .error e => (.error e, s)
      | .ok latest =>
        if Checksum.ofText latest.content = Checksum.ofText request.content then
          (.error (.conflict request.name), s)
        else write now request id.next s

def schemasLeft (request : ListRequest) (s : Folders) : Nat :=
  Page.remaining (s.wanted request).length request.token

def versionsLeft (registry name : String) (token : Option String) (s : Folders) : Nat :=
  match s.versions? registry name with
  | .ok (some versions) => Page.remaining versions.size token
  | _ => 0

theorem schemasLeft_lt {now : Instant} {request : ListRequest} {s s' : Folders}
    {page : Page SchemaSummary} {token : String}
    (listed : listSchemas now request s = (.ok page, s')) (more : page.next = some token) :
    schemasLeft { request with token := some token } s' < schemasLeft request s := by
  obtain ⟨sliced, rfl⟩ := Prod.mk.inj listed
  split at sliced
  · simp at sliced
  · split at sliced
    · simp at sliced
    · rename_i summaries collected
      have fewer := Page.remaining_slice_lt sliced more
      rw [length_collect collected] at fewer
      exact fewer

theorem versionsLeft_lt {registry name : String} {token : Option String} {s s' : Folders}
    {page : Page VersionSummary} {next : String}
    (listed : listVersions registry name token s = (.ok page, s')) (more : page.next = some next) :
    versionsLeft registry name (some next) s' < versionsLeft registry name token s := by
  obtain ⟨sliced, rfl⟩ := Prod.mk.inj listed
  split at sliced
  · simp at sliced
  · simp at sliced
  · rename_i versions found
    split at sliced
    · simp at sliced
    · rename_i summaries collected
      have fewer := Page.remaining_slice_lt sliced more
      rw [length_collect collected] at fewer
      simpa [versionsLeft, found, Table.size, Table.values] using fewer

instance : Directory Folders where
  listSchemas := listSchemas
  listVersions := listVersions
  describe := describe
  create := create
  update := update
  schemasLeft := schemasLeft
  versionsLeft := versionsLeft
  schemasLeft_lt := schemasLeft_lt
  versionsLeft_lt := versionsLeft_lt
  versionsLeft_describe := rfl

end Folders

end Schemata
