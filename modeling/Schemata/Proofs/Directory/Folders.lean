import Schemata.Directory.Folders
import Schemata.Proofs.Directory.Lawful
import Schemata.Proofs.Directory.Wire
import Schemata.Proofs.FileTree

/-! The version files of a directory of files. A file name stands for at most one version, so the files of a
folder are a table by version, and writing a version sets one entry of the table of one schema. -/
namespace Schemata.Folders

open FileTree Table

theorem suffix_free : '.' ∉ suffix := by decide

theorem toList_versionFile (id : VersionId) : (versionFile id).toList = id.text.toList ++ '.' :: suffix := by
  simp [versionFile, suffix]

theorem fileVersion?_eq_some_iff {name : String} {id : VersionId} :
    fileVersion? name = some id ↔ name = versionFile id ∧ id.text ≠ "" := by
  constructor
  · intro found
    unfold fileVersion? at found
    split at found
    · rename_i stem ending cut
      split at found
      · rename_i good
        cases found
        obtain ⟨shape, -⟩ := Text.eq_of_splitLast? cut
        constructor
        · apply String.toList_inj.mp
          rw [toList_versionFile, shape, good.2, String.toList_ofList]
        · intro empty
          have none := congrArg String.toList empty
          rw [String.toList_ofList] at none
          exact good.1 none
      · cases found
    · cases found
  · rintro ⟨rfl, nonempty⟩
    have stem : id.text.toList ≠ [] := by simpa using nonempty
    simp [fileVersion?, toList_versionFile, Text.splitLast?_append _ suffix_free, stem]

theorem versionFile_injective : Function.Injective versionFile := by
  intro a b same
  have lists := congrArg String.toList same
  rw [toList_versionFile, toList_versionFile] at lists
  have texts := List.append_cancel_right lists
  cases a
  cases b
  exact congrArg _ (String.toList_inj.mp texts)

/-- The versions whose files are among some entries. -/
def filesOf (entries : List (String × FileTree)) : List (VersionId × FileContent) :=
  entries.filterMap fun
    | (name, .file content) => (fileVersion? name).map fun id => (id, content)
    | (_, .folder _) => none

theorem mem_filesOf {entries : List (String × FileTree)} {id : VersionId} {content : FileContent} :
    (id, content) ∈ filesOf entries ↔ id.text ≠ "" ∧ (versionFile id, .file content) ∈ entries := by
  simp only [filesOf, List.mem_filterMap]
  constructor
  · rintro ⟨⟨name, tree⟩, inside, found⟩
    cases tree with
    | folder inner => cases found
    | file content' =>
      obtain ⟨id', named, same⟩ := Option.map_eq_some_iff.mp found
      cases same
      obtain ⟨rfl, nonempty⟩ := fileVersion?_eq_some_iff.mp named
      exact ⟨nonempty, inside⟩
  · rintro ⟨nonempty, inside⟩
    have named := fileVersion?_eq_some_iff.mpr ⟨rfl, nonempty⟩
    exact ⟨_, inside, by simp [named]⟩

theorem nodup_filesOf {entries : List (String × FileTree)} (unique : (entries.map (·.1)).Nodup) :
    ((filesOf entries).map (·.1)).Nodup := by
  induction entries with
  | nil => exact List.nodup_nil
  | cons entry rest ih =>
    obtain ⟨alone, unique'⟩ := List.nodup_cons.mp unique
    obtain ⟨name, tree⟩ := entry
    cases tree with
    | folder inner => exact ih unique'
    | file content =>
      cases named : fileVersion? name with
      | none => simpa [filesOf, named] using ih unique'
      | some id =>
        have shape : filesOf ((name, .file content) :: rest) = (id, content) :: filesOf rest := by
          simp [filesOf, named]
        rw [shape, List.map_cons, List.nodup_cons]
        refine ⟨fun again => alone ?_, ih unique'⟩
        obtain ⟨⟨id', content'⟩, inside, same⟩ := List.mem_map.mp again
        cases same
        rw [(fileVersion?_eq_some_iff.mp named).1]
        exact List.mem_map.mpr ⟨_, (mem_filesOf.mp inside).2, rfl⟩

section
variable {entries : Table String FileTree}

theorem stored_eq : stored entries = ofList (filesOf entries.entries) := rfl

theorem sorted_stored : (stored entries).Sorted := sorted_ofList _

theorem get?_stored (sorted : entries.Sorted) {id : VersionId} {content : FileContent} :
    (stored entries).get? id = some content ↔
      id.text ≠ "" ∧ entries.get? (versionFile id) = some (.file content) := by
  have unique := nodup_filesOf sorted.nodup_keys
  rw [stored_eq, get?_ofList unique, mem_filesOf, sorted.get?_eq_some_iff]

/-- Writing a version's file sets the version. -/
theorem stored_insert (sorted : entries.Sorted) {id : VersionId} (nonempty : id.text ≠ "")
    (content : FileContent) :
    stored (entries.insert (versionFile id) (.file content)) = (stored entries).insert id content := by
  refine sorted_stored.ext (sorted_insert sorted_stored _ _) fun other => Option.ext fun found => ?_
  rw [get?_stored (sorted_insert sorted _ _)]
  by_cases same : other = id
  · subst same
    simp only [get?_insert_same, Option.some.injEq, FileTree.file.injEq]
    exact and_iff_right nonempty
  · have apart : versionFile other ≠ versionFile id := fun equal => same (versionFile_injective equal)
    rw [get?_insert_other apart, get?_insert_other same, get?_stored sorted]

end

/-- The folder of a schema, if there is one. -/
def schemaFolder? (s : Folders) (registry name : String) : Option (Table String FileTree) :=
  s.tree.folder? (s.root ++ [registry, name])

/-- The version files of a schema; there are none without its folder. -/
def files (s : Folders) (registry name : String) : Table VersionId FileContent :=
  stored ((s.schemaFolder? registry name).getD empty)

/-- No folder below the root gives a name twice, and the names ascend. -/
def Orderly (s : Folders) : Prop :=
  ∀ path entries, s.tree.folder? (s.root ++ path) = some entries → entries.Sorted

theorem Orderly.folder {s : Folders} (orderly : s.Orderly) (path : FilePath) :
    ((s.tree.folder? (s.root ++ path)).getD empty).Sorted := by
  cases found : s.tree.folder? (s.root ++ path) with
  | none => exact sorted_empty
  | some entries => exact orderly path entries found

/-- Whether two names can be those of folders. -/
def Storable (registry name : String) : Prop := isComponent registry = true ∧ isComponent name = true

theorem versions?_of_storable {s : Folders} {registry name : String} (storable : Storable registry name) :
    s.versions? registry name = .ok ((s.schemaFolder? registry name).map stored) := by
  unfold versions? schemaPath checkComponent
  simp only [if_pos storable.1, if_pos storable.2]
  rfl

/-- Names are refused by what they are, whatever the directory holds. -/
theorem versions?_rejected {registry name : String} (refused : ¬ Storable registry name) :
    ∃ reason, ∀ s : Folders, s.versions? registry name = .error (.rejected reason) := by
  unfold versions? schemaPath checkComponent
  by_cases first : isComponent registry = true
  · by_cases second : isComponent name = true
    · exact absurd ⟨first, second⟩ refused
    · simp only [if_pos first, if_neg second]
      exact ⟨_, fun _ => rfl⟩
  · simp only [if_neg first]
    exact ⟨_, fun _ => rfl⟩

theorem versions?_eq (s : Folders) (registry name : String) :
    (Storable registry name ∧ s.versions? registry name = .ok ((s.schemaFolder? registry name).map stored)) ∨
      ¬ Storable registry name ∧ ∃ e, s.versions? registry name = .error e := by
  by_cases storable : Storable registry name
  · exact .inl ⟨storable, versions?_of_storable storable⟩
  · obtain ⟨reason, rejected⟩ := versions?_rejected storable
    exact .inr ⟨storable, _, rejected s⟩

section
variable {s : Folders} {registry name : String}

theorem size_files : (((s.schemaFolder? registry name).map stored).map Table.size).getD 0 =
    (s.files registry name).size := by
  rw [files]
  cases s.schemaFolder? registry name <;> rfl

theorem last?_files : ((s.schemaFolder? registry name).map stored).bind last? = (s.files registry name).last? := by
  rw [files]
  cases s.schemaFolder? registry name <;> rfl

end

/-- Descriptions are read from the version files. -/
theorem describe_eq {registry name : String} (storable : Storable registry name) (version : Option String)
    (s : Folders) : (describe registry name version s).1 =
      match (match version with
        | some id => (s.files registry name).get? ⟨id⟩
        | none => (s.files registry name).last?.map (·.2)) with
      | none => .error (notFound name version)
      | some content => read content := by
  unfold describe files
  rw [versions?_of_storable storable]
  cases s.schemaFolder? registry name with
  | none => cases version <;> rfl
  | some entries => rfl

theorem describe_of_refused {s : Folders} {registry name : String} (refused : ¬ Storable registry name)
    (version : Option String) : ∃ e, (describe registry name version s).1 = .error e := by
  unfold describe
  rcases s.versions?_eq registry name with ⟨storable, -⟩ | ⟨-, e, failed⟩
  · exact absurd storable refused
  · rw [failed]
    exact ⟨e, rfl⟩

theorem same_schema_of_inside {root : FilePath} {registry name registry' name' : String} {more : FilePath}
    (inside : root ++ [registry, name] <+: root ++ (registry' :: name' :: more)) :
    registry = registry' ∧ name = name' := by
  rw [List.prefix_append_right_inj] at inside
  obtain ⟨first, inside⟩ := List.cons_prefix_cons.mp inside
  exact ⟨first, (List.cons_prefix_cons.mp inside).1⟩

/-- What is answered for a written version. -/
def receiptOf (now : Instant) (request : PutRequest) (id : VersionId) : Receipt where
  description := request.description
  lastModified := now
  arn := schemaArn request.registry request.name
  name := request.name
  version := id.text
  tags := Table.empty
  format := request.format
  createdAt := now

/-- What is written for a version. -/
def fileOf (now : Instant) (request : PutRequest) (id : VersionId) : FileContent :=
  .text (Described.toJson ⟨request.content, receiptOf now request id⟩).prettyText

theorem read_fileOf {now : Instant} (proper : now.Proper) (request : PutRequest) (id : VersionId) :
    read (fileOf now request id) = .ok ⟨request.content, receiptOf now request id⟩ := by
  have written := @Described.ofWritten?_prettyText ⟨request.content, receiptOf now request id⟩
    ⟨proper, proper, sorted_empty⟩
  rw [fileOf, read, written]

/-- The directory with the folder of a schema made, as far as that is possible. -/
def withFolder (s : Folders) (registry name : String) : Folders :=
  { s with tree := (s.tree.makeFolders (s.root ++ [registry, name])).1 }

section
variable {s : Folders} {registry name : String}

theorem Orderly.withFolder (orderly : s.Orderly) : (s.withFolder registry name).Orderly := by
  intro path entries found
  exact sorted_makeFolders found (orderly.folder path)

/-- A new folder has no versions. -/
theorem files_withFolder (registry' name' : String) :
    (s.withFolder registry name).files registry' name' = s.files registry' name' := by
  by_cases same : registry' = registry ∧ name' = name
  · obtain ⟨rfl, rfl⟩ := same
    have made := folder?_makeFolders (s.root ++ [registry', name']) s.tree
    rw [files, files, schemaFolder?, schemaFolder?, Folders.withFolder]
    simp only
    rw [made]
    split
    · rfl
    · rename_i fails
      rw [folder?_of_makeFolders_fails (by simpa using fails)]
  · have aside : ¬ s.root ++ [registry', name'] <+: s.root ++ [registry, name] :=
      fun inside => same (same_schema_of_inside inside)
    rw [files, files, schemaFolder?, schemaFolder?, Folders.withFolder]
    simp only
    rw [folder?_congr (find?_makeFolders aside s.tree)]

/-- Writing a version file sets the version, and is seen in no other schema. -/
theorem files_writeFile {id : VersionId} (orderly : s.Orderly) (nonempty : id.text ≠ "")
    {content : FileContent} {tree : FileTree}
    (written : writeFile? content (s.root ++ [registry, name] ++ [versionFile id]) s.tree = some tree)
    (registry' name' : String) : ({ s with tree } : Folders).files registry' name' =
      if registry' = registry ∧ name' = name then (s.files registry' name').insert id content
      else s.files registry' name' := by
  by_cases same : registry' = registry ∧ name' = name
  · obtain ⟨rfl, rfl⟩ := same
    obtain ⟨entries, before, after⟩ := folder?_writeFile written
    have sorted := orderly [registry', name'] entries before
    simp only [files, schemaFolder?, before, after, Option.getD_some, stored_insert sorted nonempty,
      and_self, if_true]
  · have aside : ¬ s.root ++ [registry', name'] <+: s.root ++ [registry, name] ++ [versionFile id] := by
      intro inside
      rw [List.append_assoc] at inside
      exact same (same_schema_of_inside inside)
    simp only [files, schemaFolder?, folder?_congr (find?_writeFile aside written), if_neg same]

theorem Orderly.writeFile {path : FilePath} {content : FileContent} {tree : FileTree}
    (orderly : s.Orderly) (written : writeFile? content path s.tree = some tree) :
    ({ s with tree } : Folders).Orderly := by
  intro below entries found
  exact sorted_writeFile written found (orderly.folder below)

end

/-- How a write ends, and what has been made by then. -/
inductive Ends (now : Instant) (request : PutRequest) (id : VersionId) (s : Folders) :
    Except DirectoryError Receipt × Folders → Prop where
  | unnamed : ((s.root ++ [request.registry, request.name]).any fun name => '\x00' ∈ name.toList) = true →
    Ends now request id s (.error (.io "name with a NUL"), s)
  | blocked : (s.tree.makeFolders (s.root ++ [request.registry, request.name])).2 = false →
    Ends now request id s (.error (.io "folder cannot be made"), s.withFolder request.registry request.name)
  | unwritten : writeFile? (fileOf now request id) (s.root ++ [request.registry, request.name] ++ [versionFile id])
      (s.withFolder request.registry request.name).tree = none →
    Ends now request id s (.error (.io "file cannot be written"), s.withFolder request.registry request.name)
  | written {tree : FileTree} :
    writeFile? (fileOf now request id) (s.root ++ [request.registry, request.name] ++ [versionFile id])
      (s.withFolder request.registry request.name).tree = some tree →
    Ends now request id s (.ok (receiptOf now request id), { s with tree })

theorem write_ends (now : Instant) (request : PutRequest) (id : VersionId) (s : Folders) :
    Ends now request id s (write now request id s) := by
  have unwritten := @Ends.unwritten now request id s
  have written := @Ends.written now request id s
  have blocked := @Ends.blocked now request id s
  unfold withFolder at unwritten written blocked
  unfold write
  dsimp only
  split
  · exact .unnamed ‹_›
  · generalize s.tree.makeFolders (s.root ++ [request.registry, request.name]) = made at *
    obtain ⟨tree, _ | _⟩ := made
    · exact blocked rfl
    · dsimp only
      split
      · exact unwritten ‹_›
      · exact written ‹_›

/-- A write sets one version of one schema, or fails and leaves all versions as they were. -/
theorem write_cases {now : Instant} {request : PutRequest} {id : VersionId} {s s' : Folders}
    {answer : Except DirectoryError Receipt} (orderly : s.Orderly) (nonempty : id.text ≠ "")
    (wrote : write now request id s = (answer, s')) :
    s'.Orderly ∧ s'.pageSize = s.pageSize ∧
      ((∃ e, answer = .error e) ∧ s'.files = s.files ∨
        answer = .ok (receiptOf now request id) ∧ ∀ registry name, s'.files registry name =
          if registry = request.registry ∧ name = request.name then
            (s.files registry name).insert id (fileOf now request id)
          else s.files registry name) := by
  have unseen : (s.withFolder request.registry request.name).files = s.files := by
    funext registry name
    exact files_withFolder registry name
  have orderly' : (s.withFolder request.registry request.name).Orderly := orderly.withFolder
  have ends := write_ends now request id s
  rw [wrote] at ends
  cases ends with
  | unnamed _ => exact ⟨orderly, rfl, .inl ⟨⟨_, rfl⟩, rfl⟩⟩
  | blocked _ => exact ⟨orderly', rfl, .inl ⟨⟨_, rfl⟩, unseen⟩⟩
  | unwritten _ => exact ⟨orderly', rfl, .inl ⟨⟨_, rfl⟩, unseen⟩⟩
  | written written =>
    refine ⟨orderly'.writeFile written, rfl, .inr ⟨rfl, fun registry name => ?_⟩⟩
    have set := files_writeFile orderly' nonempty written registry name
    rw [unseen] at set
    exact set

/-- After a write there is its file besides those that were there before. -/
theorem found_of_set {now : Instant} {request : PutRequest} {id other : VersionId} {s s' : Folders}
    {registry name : String} {content : FileContent}
    (set : s'.files registry name =
      if registry = request.registry ∧ name = request.name then
        (s.files registry name).insert id (fileOf now request id)
      else s.files registry name)
    (found : (s'.files registry name).get? other = some content) :
    (registry = request.registry ∧ name = request.name ∧ other = id ∧ content = fileOf now request id) ∨
      (s.files registry name).get? other = some content := by
  rw [set] at found
  by_cases schema : registry = request.registry ∧ name = request.name
  · rw [if_pos schema] at found
    rcases of_get?_insert found with ⟨same, written⟩ | before
    · exact .inl ⟨schema.1, schema.2, same, written⟩
    · exact .inr before
  · rw [if_neg schema] at found
    exact .inr found

/-- What a file says is the content of its version. -/
def textOf (content : FileContent) : Option String := (read content).toOption.map (·.content)

theorem textOf_of_read {content : FileContent} {d : Described} (readable : read content = .ok d) :
    textOf content = some d.content := by
  rw [textOf, readable]
  rfl

instance (registry name : String) : Decidable (Storable registry name) :=
  inferInstanceAs (Decidable (_ ∧ _))

/-- Nothing is found under names that are refused, whatever stands in the tree. -/
def shelf (s : Folders) : Shelves := fun registry name =>
  if Storable registry name then (s.files registry name).mapValues textOf else Table.empty

theorem sorted_files (s : Folders) (registry name : String) : (s.files registry name).Sorted :=
  sorted_ofList _

theorem sorted_shelf (s : Folders) (registry name : String) : (s.shelf registry name).Sorted := by
  unfold shelf
  split
  · exact sorted_mapValues (s.sorted_files registry name)
  · exact sorted_empty

theorem content_describe (s : Folders) (registry name version : String) :
    (describe registry name (some version) s).1.toOption.map (·.content) =
      s.shelf.content registry name version := by
  unfold Shelves.content shelf
  by_cases storable : Storable registry name
  · rw [describe_eq storable, if_pos storable, get?_mapValues]
    dsimp only
    cases (s.files registry name).get? ⟨version⟩ <;> rfl
  · obtain ⟨e, failed⟩ := @describe_of_refused s registry name storable (some version)
    rw [failed, if_neg storable]
    rfl

theorem shelf_of_files {s s' : Folders} (same : s'.files = s.files) : s'.shelf = s.shelf := by
  funext registry name
  rw [shelf, shelf, same]

theorem shelf_put {now : Instant} {request : PutRequest} {id : VersionId} {s s' : Folders}
    (proper : now.Proper) (storable : Storable request.registry request.name)
    (set : ∀ registry name, s'.files registry name =
      if registry = request.registry ∧ name = request.name then
        (s.files registry name).insert id (fileOf now request id)
      else s.files registry name) : s'.shelf = s.shelf.put request id := by
  funext registry name
  have text := textOf_of_read (read_fileOf proper request id)
  unfold shelf Shelves.put
  rw [set]
  by_cases schema : registry = request.registry ∧ name = request.name
  · obtain ⟨rfl, rfl⟩ := schema
    simp only [and_self, if_true, if_pos storable, mapValues_insert, text]
  · simp only [if_neg schema]

section
variable {s : Folders} {registry name : String}

theorem shelf_of_refused (refused : ¬ Storable registry name) : s.shelf registry name = Table.empty :=
  if_neg refused

theorem shelf_of_missing (missing : s.schemaFolder? registry name = none) :
    s.shelf registry name = Table.empty := by
  rw [shelf, files, missing]
  exact ite_self _

theorem shelf_of_folder {entries : Table String FileTree} (storable : Storable registry name)
    (there : s.schemaFolder? registry name = some entries) :
    s.shelf registry name = (stored entries).mapValues textOf := by
  rw [shelf, if_pos storable, files, there]
  rfl

theorem last?_shelf (storable : Storable registry name) :
    (s.shelf registry name).last? = (s.files registry name).last?.map fun entry => (entry.1, textOf entry.2) := by
  rw [shelf, if_pos storable, last?_mapValues]

end

theorem read_ne_conflict {content : FileContent} {name : String} : read content ≠ .error (.conflict name) := by
  intro unread
  unfold read at unread
  split at unread
  · cases unread
  · split at unread <;> cases unread

theorem write_error_ne_conflict {now : Instant} {request : PutRequest} {id : VersionId} {s s' : Folders}
    {e : DirectoryError} (wrote : write now request id s = (.error e, s')) (name : String) :
    e ≠ .conflict name := by
  have ends := write_ends now request id s
  rw [wrote] at ends
  cases ends <;> exact nofun

/-- What is answered to a write, once it is known to fail or to get an identifier. -/
def perform (now : Instant) (request : PutRequest) (s : Folders) :
    Except DirectoryError VersionId → Except DirectoryError Receipt × Folders
  | .error e => (.error e, s)
  | .ok id => write now request id s

/-- The failure or the identifier that a creation gets. -/
def creation (s : Folders) (request : PutRequest) : Except DirectoryError VersionId :=
  match s.versions? request.registry request.name with
  | .error e => .error e
  | .ok found =>
    if (found.map Table.size).getD 0 = 0 then .ok .first
    else .error (.rejected ("schema " ++ request.name ++ " already exists"))

/-- The failure or the identifier that an update gets. -/
def revision (s : Folders) (request : PutRequest) : Except DirectoryError VersionId :=
  match s.versions? request.registry request.name with
  | .error e => .error e
  | .ok found =>
    match found.bind last? with
    | none => .error (notFound request.name none)
    | some (id, content) =>
      match read content with
      | .error e => .error e
      | .ok latest =>
        if Checksum.ofText latest.content = Checksum.ofText request.content then .error (.conflict request.name)
        else .ok id.next

theorem create_eq (now : Instant) (request : PutRequest) (s : Folders) :
    create now request s = perform now request s (s.creation request) := by
  unfold create creation
  cases s.versions? request.registry request.name with
  | error e => rfl
  | ok found =>
    dsimp only
    split <;> rfl

theorem update_eq (now : Instant) (request : PutRequest) (s : Folders) :
    update now request s = perform now request s (s.revision request) := by
  unfold update revision
  cases s.versions? request.registry request.name with
  | error e => rfl
  | ok found =>
    dsimp only
    rcases found.bind last? with _ | ⟨id, content⟩
    · rfl
    · dsimp only
      cases read content with
      | error e => rfl
      | ok latest =>
        dsimp only
        split <;> rfl

/-- When a creation gets what. -/
inductive Creates (s : Folders) (request : PutRequest) : Except DirectoryError VersionId → Prop where
  | refused {reason : String} : ¬ Storable request.registry request.name →
    Creates s request (.error (.rejected reason))
  | taken : Storable request.registry request.name → s.files request.registry request.name ≠ Table.empty →
    Creates s request (.error (.rejected ("schema " ++ request.name ++ " already exists")))
  | added : Storable request.registry request.name → s.files request.registry request.name = Table.empty →
    Creates s request (.ok .first)

theorem creates (s : Folders) (request : PutRequest) : s.Creates request (s.creation request) := by
  unfold creation
  by_cases storable : Storable request.registry request.name
  · rw [versions?_of_storable storable]
    dsimp only
    rw [size_files]
    split
    · rename_i none
      exact .added storable (congrArg Table.mk (List.eq_nil_of_length_eq_zero none))
    · rename_i some
      exact .taken storable fun none => some (congrArg Table.size none)
  · obtain ⟨reason, rejected⟩ := versions?_rejected storable
    rw [rejected]
    exact .refused storable

/-- When an update gets what. -/
inductive Revises (s : Folders) (request : PutRequest) : Except DirectoryError VersionId → Prop where
  | refused {reason : String} : ¬ Storable request.registry request.name →
    Revises s request (.error (.rejected reason))
  | unknown : Storable request.registry request.name → (s.files request.registry request.name).last? = none →
    Revises s request (.error (notFound request.name none))
  | unread {id : VersionId} {content : FileContent} {e : DirectoryError} :
    Storable request.registry request.name →
    (s.files request.registry request.name).last? = some (id, content) → read content = .error e →
    Revises s request (.error e)
  | unchanged {id : VersionId} {content : FileContent} {latest : Described} :
    Storable request.registry request.name →
    (s.files request.registry request.name).last? = some (id, content) → read content = .ok latest →
    Checksum.ofText latest.content = Checksum.ofText request.content →
    Revises s request (.error (.conflict request.name))
  | added {id : VersionId} {content : FileContent} {latest : Described} :
    Storable request.registry request.name →
    (s.files request.registry request.name).last? = some (id, content) → read content = .ok latest →
    Checksum.ofText latest.content ≠ Checksum.ofText request.content → Revises s request (.ok id.next)

theorem revises (s : Folders) (request : PutRequest) : s.Revises request (s.revision request) := by
  unfold revision
  by_cases storable : Storable request.registry request.name
  · rw [versions?_of_storable storable]
    dsimp only
    rw [last?_files]
    split
    · exact .unknown storable ‹_›
    · split
      · exact .unread storable ‹_› ‹_›
      · split
        · exact .unchanged storable ‹_› ‹_› ‹_›
        · exact .added storable ‹_› ‹_› ‹_›
  · obtain ⟨reason, rejected⟩ := versions?_rejected storable
    rw [rejected]
    exact .refused storable

/-- What a version has whose identifier the directory gives. -/
structure Given (request : PutRequest) (id : VersionId) : Prop where
  storable : Storable request.registry request.name
  number : ∃ n < 18446744073709551616, id = .ofNat n

theorem Given.nonempty {request : PutRequest} {id : VersionId} (given : Given request id) : id.text ≠ "" := by
  obtain ⟨n, -, rfl⟩ := given.number
  exact VersionId.text_ofNat_ne_empty n

section
variable {now : Instant} {request : PutRequest} {s : Folders}

theorem given_creation {id : VersionId} (decided : s.creation request = .ok id) : Given request id := by
  have creates := s.creates request
  rw [decided] at creates
  cases creates with
  | added storable _ => exact ⟨storable, 1, by decide, VersionId.first_eq⟩

theorem given_revision {id : VersionId} (decided : s.revision request = .ok id) : Given request id := by
  have revises := s.revises request
  rw [decided] at revises
  cases revises with
  | added storable _ _ _ => exact ⟨storable, VersionId.next_eq_ofNat _⟩

theorem Orderly.perform {decision : Except DirectoryError VersionId} (orderly : s.Orderly)
    (given : ∀ id, decision = .ok id → Given request id) : (Folders.perform now request s decision).2.Orderly := by
  cases decision with
  | error e => exact orderly
  | ok id => exact (write_cases orderly (given id rfl).nonempty rfl).1

theorem Orderly.create (orderly : s.Orderly) : (Folders.create now request s).2.Orderly := by
  rw [create_eq]
  exact orderly.perform fun _ => given_creation

theorem Orderly.update (orderly : s.Orderly) : (Folders.update now request s).2.Orderly := by
  rw [update_eq]
  exact orderly.perform fun _ => given_revision

variable (proper : now.Proper) (orderly : s.Orderly)
include proper orderly

/-- A write that gets an identifier fails and leaves the shelves as they are, or puts its version there. -/
theorem shelf_perform {id : VersionId} (given : Given request id) :
    (∃ e, (perform now request s (.ok id)).1 = .error e ∧ (∀ name, e ≠ .conflict name) ∧
        (perform now request s (.ok id)).2.shelf = s.shelf) ∨
      (perform now request s (.ok id)).1 = .ok (receiptOf now request id) ∧
        (perform now request s (.ok id)).2.shelf = s.shelf.put request id := by
  rw [perform]
  rcases wrote : write now request id s with ⟨answer, s'⟩
  obtain ⟨-, -, ⟨⟨e, rfl⟩, same⟩ | ⟨rfl, set⟩⟩ := write_cases orderly given.nonempty wrote
  · exact .inl ⟨e, rfl, write_error_ne_conflict wrote, shelf_of_files same⟩
  · exact .inr ⟨rfl, shelf_put proper given.storable set⟩

theorem create_cases : s.shelf.Created request (create now request s).1 (create now request s).2.shelf := by
  have creates := s.creates request
  have given := @given_creation request s
  rw [create_eq]
  generalize s.creation request = decision at creates given ⊢
  cases creates with
  | refused _ => exact .refused
  | taken _ _ => exact .refused
  | added storable bare =>
    have empty : s.shelf request.registry request.name = Table.empty := by
      rw [shelf, if_pos storable, bare]
      rfl
    obtain ⟨e, failed, -, same⟩ | ⟨answered, put⟩ := shelf_perform proper orderly (given rfl)
    · rw [failed, same]
      exact .refused
    · rw [answered, put]
      exact .added empty rfl rfl

theorem update_cases : s.shelf.Updated request (update now request s).1 (update now request s).2.shelf := by
  have revises := s.revises request
  have given := @given_revision request s
  rw [update_eq]
  generalize s.revision request = decision at revises given ⊢
  have shelved {id : VersionId} {content : FileContent} {latest : Described}
      (storable : Storable request.registry request.name)
      (greatest : (s.files request.registry request.name).last? = some (id, content))
      (readable : read content = .ok latest) :
      (s.shelf request.registry request.name).last? = some (id, some latest.content) := by
    rw [last?_shelf storable, greatest, Option.map_some, textOf_of_read readable]
  cases revises with
  | refused _ => exact .refused nofun
  | unknown _ _ => exact .refused (by simp [notFound])
  | unread _ _ unread => exact .refused fun name same => read_ne_conflict (same ▸ unread)
  | unchanged storable greatest readable same => exact .unchanged (shelved storable greatest readable) same
  | added storable greatest readable differs =>
    obtain ⟨e, failed, ordinary, same⟩ | ⟨answered, put⟩ := shelf_perform proper orderly (given rfl)
    · rw [failed, same]
      exact .refused ordinary
    · rw [answered, put]
      exact .added (shelved storable greatest readable) differs rfl rfl

end

/-- Every version file is one that was written for its version. -/
structure Kept (s : Folders) : Prop where
  orderly : s.Orderly
  written : ∀ registry name id content, (s.files registry name).get? id = some content →
    ∃ now request, now.Proper ∧ request.name = name ∧ content = fileOf now request id

theorem Kept.read {s : Folders} (kept : s.Kept) {registry name : String} {id : VersionId}
    {content : FileContent} (found : (s.files registry name).get? id = some content) :
    ∃ d, Folders.read content = .ok d ∧ d.receipt.name = name ∧ d.receipt.version = id.text := by
  obtain ⟨now, request, proper, named, rfl⟩ := kept.written registry name id content found
  exact ⟨_, read_fileOf proper request id, named, rfl⟩

theorem Kept.write {now : Instant} {request : PutRequest} {id : VersionId} {s s' : Folders}
    {answer : Except DirectoryError Receipt} (kept : s.Kept) (proper : now.Proper) (nonempty : id.text ≠ "")
    (wrote : Folders.write now request id s = (answer, s')) : s'.Kept := by
  obtain ⟨orderly, -, ⟨-, same⟩ | ⟨-, set⟩⟩ := write_cases kept.orderly nonempty wrote
  · exact ⟨orderly, same ▸ kept.written⟩
  · refine ⟨orderly, ?_⟩
    intro registry name other content found
    rcases found_of_set (set registry name) found with ⟨rfl, rfl, rfl, rfl⟩ | before
    · exact ⟨now, request, proper, rfl, rfl⟩
    · exact kept.written registry name other content before

section
variable {now : Instant} {request : PutRequest} {s : Folders} (kept : s.Kept) (proper : now.Proper)
include kept proper

theorem Kept.perform {decision : Except DirectoryError VersionId}
    (given : ∀ id, decision = .ok id → Given request id) : (Folders.perform now request s decision).2.Kept := by
  cases decision with
  | error e => exact kept
  | ok id => exact kept.write proper (given id rfl).nonempty rfl

theorem Kept.create : (Folders.create now request s).2.Kept := by
  rw [create_eq]
  exact kept.perform proper fun _ => given_creation

theorem Kept.update : (Folders.update now request s).2.Kept := by
  rw [update_eq]
  exact kept.perform proper fun _ => given_revision

end

theorem Kept.describe_describes {s : Folders} (kept : s.Kept) (registry name : String)
    (version : Option String) :
    (s.shelf registry name).Describes name version (describe registry name version s).1 := by
  by_cases storable : Storable registry name
  · have sorted := s.sorted_shelf registry name
    have here : s.shelf registry name = (s.files registry name).mapValues textOf := if_pos storable
    rw [describe_eq storable]
    cases version with
    | some text =>
      dsimp only
      cases inside : (s.files registry name).get? ⟨text⟩ with
      | none => exact .absent (fun other same => by cases same; simp [here, get?_mapValues, inside]) nofun
      | some content =>
        obtain ⟨d, readable, named, numbered⟩ := kept.read inside
        simp only [readable]
        exact .found named (by simp [here, get?_mapValues, numbered, inside, textOf_of_read readable])
          (fun _ same => by cases same; exact numbered) nofun
    | none =>
      dsimp only
      cases last : (s.files registry name).last? with
      | none => exact .absent nofun fun _ => by rw [here, last?_eq_none.mp last]; rfl
      | some entry =>
        obtain ⟨id, content⟩ := entry
        obtain ⟨d, readable, named, numbered⟩ := kept.read ((s.sorted_files _ _).last?_eq_some_iff.mp last).1
        have last' : (s.shelf registry name).last? = some (⟨d.receipt.version⟩, some d.content) := by
          rw [here, last?_mapValues, last, numbered, ← textOf_of_read readable]
          rfl
        simp only [Option.map_some, readable]
        exact .found named (sorted.last?_eq_some_iff.mp last').1 nofun fun _ => last'
  · obtain ⟨e, failed⟩ := @describe_of_refused s registry name storable version
    have bare := @shelf_of_refused s registry name storable
    rw [failed]
    exact .absent (fun text _ => by rw [bare, get?_empty]) fun _ => bare

section
variable {f : α → Except DirectoryError β} {g : β → γ}

theorem map_collect {k : α → γ} (agree : ∀ a b, f a = .ok b → g b = k a) {xs : List α} {ys : List β}
    (collected : collect f xs = .ok ys) : ys.map g = xs.map k := by
  induction xs generalizing ys with
  | nil =>
    cases collected
    rfl
  | cons a rest ih =>
    unfold collect at collected
    split at collected
    · cases collected
    · rename_i b made
      split at collected
      · cases collected
      · rename_i more others
        cases collected
        rw [List.map_cons, List.map_cons, agree a b made, ih others]

/-- If every item is taken, all are. -/
theorem collect_ok {h : δ → α} {k : δ → γ} {xs : List δ} (each : ∀ x ∈ xs, ∃ b, f (h x) = .ok b ∧ g b = k x) :
    ∃ ys, collect f (xs.map h) = .ok ys ∧ ys.map g = xs.map k := by
  induction xs with
  | nil => exact ⟨[], rfl, rfl⟩
  | cons x rest ih =>
    obtain ⟨b, made, agrees⟩ := each x List.mem_cons_self
    obtain ⟨ys, others, agree⟩ := ih fun x member => each x (List.mem_cons_of_mem _ member)
    exact ⟨b :: ys, by simp [collect, made, others], by simp [agrees, agree]⟩

end

def catalog (s : Folders) : Catalog :=
  ⟨s.shelf, fun registry => (s.wanted ⟨registry, none, none⟩).map (·.1)⟩

/-- A schema's folder is among those that are listed. -/
theorem mem_wanted {s : Folders} {registry name : String} {inner : Table String FileTree}
    (there : s.schemaFolder? registry name = some inner) (request : ListRequest)
    (same : request.registry = registry) (whole : request.start = none) :
    (name, inner) ∈ s.wanted request := by
  have place := folder?_eq_some_iff.mp there
  rw [List.append_cons, find?_append, Option.bind_eq_some_iff] at place
  obtain ⟨tree, above, below⟩ := place
  cases tree with
  | file content => cases below
  | folder entries =>
    rw [find?_cons, Option.bind_eq_some_iff] at below
    obtain ⟨tree, entry, here⟩ := below
    rw [find?_nil, Option.some.injEq] at here
    subst here
    have folder := folder?_eq_some_iff.mpr above
    unfold wanted
    rw [same, folder]
    exact List.mem_filterMap.mpr ⟨_, mem_of_get? entry, by simp [whole]⟩

theorem Kept.catalog {s : Folders} (kept : s.Kept) : s.catalog.Orderly where
  sorted := s.sorted_shelf
  readable registry name id content found := by
    by_cases storable : Storable registry name
    · simp only [Folders.catalog, shelf, if_pos storable, get?_mapValues, Option.map_eq_some_iff] at found
      obtain ⟨file, inside, rfl⟩ := found
      obtain ⟨d, readable, -⟩ := kept.read inside
      exact ⟨d.content, textOf_of_read readable⟩
    · simp [Folders.catalog, shelf_of_refused storable] at found
  named registry name versions := by
    cases there : s.schemaFolder? registry name with
    | none => exact absurd (shelf_of_missing there) versions
    | some inner => exact List.mem_map.mpr ⟨_, mem_wanted there _ rfl rfl, rfl⟩

theorem name_summary {now : Instant} {registry : String} {entry : String × Table String FileTree}
    {made : SchemaSummary} (summarised : summary now registry entry = .ok made) : made.name = entry.1 := by
  unfold summary at summarised
  dsimp only at summarised
  split at summarised
  · cases summarised
    rfl
  · split at summarised
    · cases summarised
      rfl
    · cases summarised

instance : LawfulDirectory Folders where
  catalog := Folders.catalog
  Kept := Kept
  orderly := Kept.catalog
  listSchemas_law {_ request s _ _} kept listed := by
    obtain ⟨rfl, rfl⟩ := Prod.mk.inj listed
    refine ⟨kept, rfl, ?_⟩
    intro whole
    split
    · exact .inl ⟨_, rfl⟩
    · split
      · exact .inl ⟨_, rfl⟩
      · rename_i summaries collected
        refine .inr ⟨summaries, _, ?_, rfl⟩
        have same : s.wanted request = s.wanted ⟨request.registry, none, none⟩ := by
          rw [wanted, wanted, whole]
        rw [map_collect (fun _ _ => name_summary) collected, same]
        rfl
  listVersions_law {registry name _ s _ _} kept listed := by
    obtain ⟨rfl, rfl⟩ := Prod.mk.inj listed
    refine ⟨kept, rfl, ?_⟩
    rcases s.versions?_eq registry name with ⟨storable, known⟩ | ⟨refused, e, failed⟩
    · rw [known]
      cases there : s.schemaFolder? registry name with
      | none => exact .inl ⟨⟨_, rfl⟩, shelf_of_missing there⟩
      | some entries =>
        have each : ∀ entry ∈ (stored entries).entries, ∃ b, versionSummary entry.2 = .ok b ∧
            VersionId.mk b.version = entry.1 := by
          intro entry inside
          have file : (s.files registry name).get? entry.1 = some entry.2 := by
            rw [files, there]
            exact sorted_stored.get?_of_mem inside
          obtain ⟨d, readable, -, numbered⟩ := kept.read file
          exact ⟨_, by rw [versionSummary, readable], congrArg VersionId.mk numbered⟩
        obtain ⟨summaries, collected, versions⟩ :=
          @collect_ok _ _ _ versionSummary (fun b => VersionId.mk b.version) _ _ _ _ each
        refine .inr ⟨summaries, s.pageSize, ?_, by simp only [Option.map_some, values, collected]⟩
        rw [versions, Folders.catalog]
        dsimp only
        rw [shelf_of_folder storable there, keys_mapValues]
        rfl
    · rw [failed]
      exact .inl ⟨⟨_, rfl⟩, shelf_of_refused refused⟩
  describe_law {registry name version _ _ _} kept described := by
    obtain ⟨rfl, rfl⟩ := Prod.mk.inj described
    exact ⟨kept, rfl, kept.describe_describes registry name version⟩
  create_law proper kept created := by
    obtain ⟨rfl, rfl⟩ := Prod.mk.inj created
    exact ⟨kept.create proper, create_cases proper kept.orderly⟩
  update_law proper kept updated := by
    obtain ⟨rfl, rfl⟩ := Prod.mk.inj updated
    exact ⟨kept.update proper, update_cases proper kept.orderly⟩

end Schemata.Folders
