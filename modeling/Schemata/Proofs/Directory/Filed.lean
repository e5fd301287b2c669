import Schemata.Proofs.Directory.Folders
import Schemata.Proofs.Directory.Ledger
import Schemata.Proofs.Text.Digits
import Schemata.Proofs.Version.Order

/-! A directory of files that only its own writes have filled keeps a ledger. What stands below its root stands at
its level, so nothing is ever in the way of a write; and every version file tells of the version that it is named
for, so everything in it can be read. -/
namespace Schemata.Folders

open FileTree Table

/-- The file of a numbered version has a name that can be stored. -/
theorem isStorable_versionFile {n : Nat} (small : n < 10 ^ 20) : isStorable (versionFile (.ofNat n)) = true := by
  have short := Text.length_decimal_le (by decide) small
  have digits := Text.decimal_digits n
  have size : (versionFile (.ofNat n)).utf8ByteSize = (Text.decimal n).length + 5 := by
    rw [versionFile, String.utf8ByteSize_append, VersionId.ofNat, Text.utf8ByteSize_digits digits]
    rfl
  have plain : '\x00' ∉ (versionFile (.ofNat n)).toList := by
    rw [toList_versionFile, VersionId.ofNat, String.toList_ofList, List.mem_append]
    rintro (inside | inside)
    · cases digits _ inside
    · simp [suffix] at inside
  simp only [isStorable, plain, not_false_eq_true, decide_true, Bool.true_and, size, decide_eq_true_eq]
  omega

theorem Given.isStorable {request : PutRequest} {id : VersionId} (given : Given request id) :
    isStorable (versionFile id) = true := by
  obtain ⟨n, word, rfl⟩ := given.number
  exact isStorable_versionFile (by omega)

/-- The requests with names that a folder can have. -/
def Accepts (request : DirectoryRequest) : Prop :=
  ∀ name ∈ request.names, isComponent name = true ∧ isStorable name = true

instance (request : DirectoryRequest) : Decidable (Accepts request) :=
  inferInstanceAs (Decidable (∀ _ ∈ _, _))

theorem Accepts.storable {request : DirectoryRequest} {registry name : String} (accepted : Accepts request)
    (names : request.names = [registry, name]) : Storable registry name :=
  ⟨(accepted registry (by simp [names])).1, (accepted name (by simp [names])).1⟩

/-- The root is there, and below it are folders of folders of files. -/
structure Layered (s : Folders) : Prop where
  root : ∃ entries, s.tree.folder? s.root = some entries
  storable : ∀ name ∈ s.root, isStorable name = true
  fileLevel : ∀ path content, s.tree.find? (s.root ++ path) = some (.file content) → path.length = 3
  folderLevel : ∀ path entries, s.tree.find? (s.root ++ path) = some (.folder entries) → path.length < 3

section
variable {s : Folders} (layered : s.Layered)
include layered

theorem Layered.clear {registry name : String} {other : FilePath} (inside : other <+: s.root ++ [registry, name])
    (content : FileContent) : s.tree.find? other ≠ some (.file content) := by
  intro found
  -- What is on the way is above the root, or below it and too near to be a file.
  rcases List.prefix_or_prefix_of_prefix inside (List.prefix_append s.root [registry, name]) with above | ⟨path, rfl⟩
  · obtain ⟨entries, there⟩ := layered.root
    obtain ⟨folder, same⟩ := folder_on_way there above
    cases same.symm.trans found
  · have level := layered.fileLevel path content found
    have short := ((List.prefix_append_right_inj s.root).mp inside).length_le
    rw [level] at short
    simp at short

theorem Layered.free (registry name file : String) (inner : Table String FileTree) :
    ((s.schemaFolder? registry name).getD empty).get? file ≠ some (.folder inner) := by
  intro taken
  cases there : s.schemaFolder? registry name with
  | none => simp [there] at taken
  | some entries =>
    have place := folder?_eq_some_iff.mp there
    have found : s.tree.find? (s.root ++ [registry, name, file]) = some (.folder inner) := by
      rw [show s.root ++ [registry, name, file] = s.root ++ [registry, name] ++ [file] by simp, find?_append, place]
      rw [there] at taken
      rw [Option.bind_some, find?_cons, show entries.get? file = _ from taken, Option.bind_some, find?_nil]
    have level := layered.folderLevel _ _ found
    simp at level

/-- The levels stay as they are when a version is written. -/
theorem Layered.put {registry name file : String} {content : FileContent} {after : FileTree}
    (written : writeFile? content (s.root ++ [registry, name] ++ [file])
      (s.tree.makeFolders (s.root ++ [registry, name])).1 = some after) :
    ({ s with tree := after } : Folders).Layered := by
  obtain ⟨entries, -, there⟩ := folder?_writeFile written
  obtain ⟨above, root⟩ := folder_on_way there (List.prefix_append s.root [registry, name])
  have new (path : FilePath) := find?_put_cases written (s.root ++ path)
  refine ⟨⟨above, folder?_eq_some_iff.mpr root⟩, layered.storable, fun path content found => ?_,
    fun path entries found => ?_⟩
  · rcases new path with before | ⟨-, above, folder⟩ | ⟨same, -⟩
    · exact layered.fileLevel path content (before ▸ found)
    · cases folder.symm.trans found
    · rw [List.append_assoc, List.append_cancel_left_eq] at same
      rw [same]
      rfl
  · rcases new path with before | ⟨inside, -⟩ | ⟨-, other⟩
    · exact layered.folderLevel path entries (before ▸ found)
    · exact Nat.lt_succ_of_le ((List.prefix_append_right_inj s.root).mp inside).length_le
    · cases other.symm.trans found

theorem Layered.storables {request : PutRequest} (accepted : Accepts (.create request)) :
    ∀ name ∈ s.root ++ [request.registry, request.name], isStorable name = true := by
  intro name inside
  rcases List.mem_append.mp inside with above | below
  · exact layered.storable name above
  · exact (accepted name below).2

end

/-- A file written into a schema's folder is seen there and in no other schema. -/
theorem schemaFolder?_put {s : Folders} {registry name file : String} {content : FileContent} {after : FileTree}
    (written : writeFile? content (s.root ++ [registry, name] ++ [file])
      (s.tree.makeFolders (s.root ++ [registry, name])).1 = some after) (registry' name' : String) :
    ({ s with tree := after } : Folders).schemaFolder? registry' name' =
      if registry' = registry ∧ name' = name then
        some (((s.schemaFolder? registry' name').getD empty).insert file (.file content))
      else s.schemaFolder? registry' name' := by
  by_cases schema : registry' = registry ∧ name' = name
  · obtain ⟨rfl, rfl⟩ := schema
    obtain ⟨entries, made, set⟩ := folder?_writeFile written
    rw [folder?_makeFolders, Option.ite_none_right_eq_some, Option.some.injEq] at made
    rw [if_pos ⟨rfl, rfl⟩, schemaFolder?, schemaFolder?, made.2]
    exact set
  · have aside : ¬ s.root ++ [registry', name'] <+: s.root ++ [registry, name] ++ [file] := by
      intro inside
      rw [List.append_assoc] at inside
      exact schema (same_schema_of_inside inside)
    have aside' : ¬ s.root ++ [registry', name'] <+: s.root ++ [registry, name] :=
      fun above => aside (above.trans (List.prefix_append _ _))
    rw [if_neg schema, schemaFolder?, schemaFolder?, folder?_congr (find?_writeFile aside written),
      folder?_congr (find?_makeFolders aside' s.tree)]

/-- Nothing is in the way of a write, and it sets the version's file. -/
theorem Layered.write {s : Folders} (layered : s.Layered) {now : Instant} {request : PutRequest} {id : VersionId}
    (accepted : Accepts (.create request)) (storable : isStorable (versionFile id) = true) :
    ∃ s', Folders.write now request id s = (.ok (receiptOf now request id), s') ∧ s'.Layered ∧
      ∀ registry name, s'.schemaFolder? registry name =
        if registry = request.registry ∧ name = request.name then
          some (((s.schemaFolder? registry name).getD empty).insert (versionFile id)
            (.file (fileOf now request id)))
        else s.schemaFolder? registry name := by
  have storables := layered.storables accepted
  have plain : ¬ ((s.root ++ [request.registry, request.name]).any fun name => '\x00' ∈ name.toList) = true := by
    rw [List.any_eq_true]
    rintro ⟨name, inside, nul⟩
    have storable := storables name inside
    simp_all [isStorable]
  have succeeds := makeFolders_succeeds (fun _ inside content => layered.clear inside content) storables
  have made : s.tree.makeFolders (s.root ++ [request.registry, request.name]) =
      ((s.tree.makeFolders (s.root ++ [request.registry, request.name])).1, true) := Prod.ext rfl succeeds
  have there := folder?_makeFolders (s.root ++ [request.registry, request.name]) s.tree
  rw [if_pos succeeds] at there
  obtain ⟨after, written⟩ := @writeFile?_succeeds (fileOf now request id) _ _ _ _ there
    (layered.free request.registry request.name (versionFile id)) storable
  refine ⟨{ s with tree := after }, ?_, layered.put written, schemaFolder?_put written⟩
  unfold Folders.write
  simp only
  rw [if_neg plain, made]
  -- The text that is written is that of the version's file.
  unfold fileOf receiptOf at written
  simp only [written]
  rfl

/-- What a file says of its version, without the time. A file that cannot be read says nothing. -/
def editionOf (content : FileContent) : Edition :=
  match read content with
  | .ok d => ⟨d.content, d.receipt.description, d.receipt.format⟩
  | .error _ => ⟨"", none, .jsonSchemaDraft4⟩

theorem editionOf_fileOf {now : Instant} (proper : now.Proper) (request : PutRequest) (id : VersionId) :
    editionOf (fileOf now request id) = request.edition := by
  rw [editionOf, read_fileOf proper]
  rfl

def schemaFolders (s : Folders) (registry : String) : Table String (Table String FileTree) :=
  ⟨s.wanted ⟨registry, none, none⟩⟩

def ledger (s : Folders) : Ledger where
  schemas registry := (s.schemaFolders registry).mapValues fun inner => (stored inner).mapValues editionOf
  pageSize := s.pageSize

theorem wanted_eq (s : Folders) (request : ListRequest) :
    s.wanted request = (s.schemaFolders request.registry).entries.filter fun entry => request.wants entry.1 := by
  unfold schemaFolders wanted
  cases s.tree.folder? (s.root ++ [request.registry]) with
  | none => rfl
  | some entries =>
    simp only [List.filter_filterMap]
    refine List.filterMap_congr fun entry _ => ?_
    obtain ⟨name, tree⟩ := entry
    cases tree with
    | file content => rfl
    | folder inner =>
      unfold ListRequest.wants
      cases request.start with
      | none => rfl
      | some start => cases wants : (Text.dropLead? start.toList name.toList).isSome <;> simp [wants, Option.filter]

section
variable {s : Folders} (orderly : s.Orderly)
include orderly

theorem Orderly.sorted_schemaFolders (registry : String) : (s.schemaFolders registry).Sorted := by
  unfold schemaFolders wanted Sorted
  cases there : s.tree.folder? (s.root ++ [registry]) with
  | none => exact List.Pairwise.nil
  | some entries =>
    refine (orderly [registry] entries there).filterMap _ fun a b below c named d named' => ?_
    obtain ⟨name, file | inner⟩ := a <;> cases named
    obtain ⟨name', file | inner'⟩ := b <;> cases named'
    exact below

theorem Orderly.get?_schemaFolders (registry name : String) :
    (s.schemaFolders registry).get? name = s.schemaFolder? registry name := by
  have sorted := orderly.sorted_schemaFolders registry
  refine Option.ext fun inner => ⟨fun found => ?_, fun there => sorted.get?_of_mem (mem_wanted there _ rfl rfl)⟩
  have member := mem_of_get? found
  unfold schemaFolders wanted at member
  cases above : s.tree.folder? (s.root ++ [registry]) with
  | none => simp [above] at member
  | some entries =>
    rw [above] at member
    obtain ⟨⟨name', tree⟩, inside, same⟩ := List.mem_filterMap.mp member
    cases tree with
    | file content => cases same
    | folder inner' =>
      cases same
      have entry := (orderly [registry] entries above).get?_of_mem inside
      refine folder?_eq_some_iff.mpr ?_
      rw [List.append_cons, find?_append, folder?_eq_some_iff.mp above, Option.bind_some, find?_cons, entry]
      rfl

theorem Orderly.get?_ledger (registry name : String) : (s.ledger.schemas registry).get? name =
    (s.schemaFolder? registry name).map fun inner => (stored inner).mapValues editionOf := by
  rw [ledger, get?_mapValues, orderly.get?_schemaFolders]

theorem Orderly.editions_ledger (registry name : String) :
    s.ledger.editions registry name = (s.files registry name).mapValues editionOf := by
  rw [Ledger.editions, orderly.get?_ledger, files]
  cases s.schemaFolder? registry name <;> rfl

/-- Setting a version's file sets its edition. -/
theorem Orderly.ledger_put {s' : Folders} {now : Instant} {request : PutRequest} {id : VersionId}
    (proper : now.Proper) (orderly' : s'.Orderly) (nonempty : id.text ≠ "") (size : s'.pageSize = s.pageSize)
    (set : ∀ registry name, s'.schemaFolder? registry name =
      if registry = request.registry ∧ name = request.name then
        some (((s.schemaFolder? registry name).getD empty).insert (versionFile id) (.file (fileOf now request id)))
      else s.schemaFolder? registry name) : s'.ledger = s.ledger.put request id := by
  have same (registry : String) : s'.ledger.schemas registry = (s.ledger.put request id).schemas registry := by
    have sorted : (s.ledger.schemas registry).Sorted := sorted_mapValues (orderly.sorted_schemaFolders registry)
    have sorted' : (s'.ledger.schemas registry).Sorted := sorted_mapValues (orderly'.sorted_schemaFolders registry)
    unfold Ledger.put
    dsimp only
    -- Both tables are in order, so it is enough that the same is found in them.
    split
    · rename_i first
      subst first
      refine sorted'.ext (sorted_insert sorted _ _) fun name => ?_
      rw [orderly'.get?_ledger, set]
      by_cases second : name = request.name
      · subst second
        have schema : ((s.schemaFolder? request.registry request.name).getD empty).Sorted :=
          orderly.folder [request.registry, request.name]
        rw [if_pos ⟨rfl, rfl⟩, get?_insert_same, orderly.editions_ledger, Option.map_some,
          stored_insert schema nonempty, mapValues_insert, editionOf_fileOf proper]
        rfl
      · rw [if_neg fun both => second both.2, get?_insert_other second, orderly.get?_ledger]
    · rename_i other
      refine sorted'.ext sorted fun name => ?_
      rw [orderly'.get?_ledger, orderly.get?_ledger, set, if_neg fun both => other both.1]
  exact (congrArg (Ledger.mk · s'.pageSize) (funext same)).trans (congrArg _ size)

end

/-- Every version file is one that was written for its version. -/
structure Filed (s : Folders) : Prop where
  orderly : s.Orderly
  layered : s.Layered
  written : ∀ registry name id content, (s.files registry name).get? id = some content →
    ∃ now request, now.Proper ∧ request.registry = registry ∧ request.name = name ∧
      content = fileOf now request id

namespace Filed

section
variable {s : Folders} (filed : s.Filed)
include filed

/-- A version's file tells of the version what its edition does. -/
theorem reads {registry name : String} {id : VersionId} {content : FileContent}
    (found : (s.files registry name).get? id = some content) :
    ∃ d, read content = .ok d ∧
      d.undated = ⟨(editionOf content).content, Ledger.receipt registry name id (editionOf content)⟩ := by
  obtain ⟨now, request, proper, rfl, rfl, rfl⟩ := filed.written registry name id content found
  refine ⟨_, read_fileOf proper request id, ?_⟩
  rw [editionOf_fileOf proper]
  rfl

theorem reads_stored {registry name : String} {inner : Table String FileTree}
    (there : s.schemaFolder? registry name = some inner) {id : VersionId} {content : FileContent}
    (found : (stored inner).get? id = some content) :
    ∃ d, read content = .ok d ∧
      d.undated = ⟨(editionOf content).content, Ledger.receipt registry name id (editionOf content)⟩ := by
  refine filed.reads ?_
  rw [files, there]
  exact found

theorem summary_ledger (now : Instant) {registry name : String} {inner : Table String FileTree}
    (there : s.schemaFolder? registry name = some inner) :
    ∃ made, summary now registry (name, inner) = .ok made ∧
      made.undated = Ledger.schemaSummary registry (name, (stored inner).mapValues editionOf) := by
  have size : ((stored inner).mapValues editionOf).size = (stored inner).size := by simp [mapValues, Table.size]
  unfold summary Ledger.schemaSummary
  rw [size]
  dsimp only
  split
  · exact ⟨_, rfl, rfl⟩
  · rename_i id content last
    obtain ⟨d, readable, -⟩ := filed.reads_stored there (sorted_stored.last?_eq_some_iff.mp last).1
    rw [readable]
    exact ⟨_, rfl, rfl⟩

theorem listSchemas_ledger (now : Instant) {request : ListRequest} (component : isComponent request.registry = true) :
    (listSchemas now request s).1.map (Page.map SchemaSummary.undated) = s.ledger.listSchemas request := by
  have each : ∀ entry ∈ s.wanted request, ∃ made, summary now request.registry (id entry) = .ok made ∧
      made.undated = Ledger.schemaSummary request.registry (entry.1, (stored entry.2).mapValues editionOf) := by
    intro entry inside
    rw [wanted_eq] at inside
    have found := (filed.orderly.sorted_schemaFolders _).get?_of_mem (List.mem_filter.mp inside).1
    rw [filed.orderly.get?_schemaFolders] at found
    exact filed.summary_ledger now found
  obtain ⟨summaries, collected, undated⟩ := collect_ok each
  rw [List.map_id] at collected
  unfold listSchemas checkComponent
  rw [if_pos component]
  simp only [collected]
  rw [← Page.slice_map, undated, wanted_eq, Ledger.listSchemas]
  simp only [ledger, mapValues, List.filter_map, List.map_map]
  rfl

theorem listVersions_ledger {registry name : String} (token : Option String) (storable : Storable registry name) :
    (listVersions registry name token s).1 = s.ledger.listVersions registry name token := by
  unfold listVersions Ledger.listVersions
  rw [filed.orderly.get?_ledger, versions?_of_storable storable]
  cases there : s.schemaFolder? registry name with
  | none => rfl
  | some inner =>
    have each : ∀ entry ∈ (stored inner).entries, ∃ made, versionSummary entry.2 = .ok made ∧
        id made = Ledger.versionSummary registry name (entry.1, editionOf entry.2) := by
      intro entry inside
      obtain ⟨d, readable, undated⟩ := filed.reads_stored there (sorted_stored.get?_of_mem inside)
      have told := congrArg (fun d : Described => VersionSummary.mk d.receipt.arn d.receipt.name d.receipt.version
        d.receipt.format) undated
      exact ⟨_, by rw [versionSummary, readable]; rfl, told⟩
    obtain ⟨summaries, collected, same⟩ := collect_ok each
    rw [List.map_id] at same
    simp only [Option.map_some, values, collected]
    rw [same]
    simp only [mapValues, List.map_map]
    rfl

theorem describe_ledger {registry name : String} (version : Option String) (storable : Storable registry name) :
    (describe registry name version s).1.map Described.undated = s.ledger.describe registry name version := by
  rw [describe_eq storable, Ledger.describe, filed.orderly.editions_ledger]
  cases version with
  | some text =>
    simp only [Ledger.chosen?, get?_mapValues]
    cases found : (s.files registry name).get? ⟨text⟩ with
    | none => rfl
    | some content =>
      obtain ⟨d, readable, undated⟩ := filed.reads found
      simp only [readable, Option.map_some]
      exact congrArg Except.ok undated
  | none =>
    simp only [Ledger.chosen?, last?_mapValues]
    cases last : (s.files registry name).last? with
    | none => rfl
    | some entry =>
      obtain ⟨d, readable, undated⟩ := filed.reads ((s.sorted_files _ _).last?_eq_some_iff.mp last).1
      simp only [readable, Option.map_some]
      exact congrArg Except.ok undated

theorem write_ledger {now : Instant} (proper : now.Proper) {request : PutRequest} {id : VersionId}
    (accepted : Accepts (.create request)) (given : Given request id) :
    (Folders.write now request id s).2.Filed ∧
      ((Folders.write now request id s).1.map Receipt.undated, (Folders.write now request id s).2.ledger) =
        s.ledger.write request id := by
  obtain ⟨s', wrote, layered, set⟩ := filed.layered.write accepted given.isStorable
  obtain ⟨orderly, size, ⟨⟨e, failed⟩, -⟩ | ⟨-, files⟩⟩ := write_cases filed.orderly given.nonempty wrote
  · cases failed
  · rw [wrote]
    have ledger := filed.orderly.ledger_put proper orderly given.nonempty size set
    refine ⟨⟨orderly, layered, fun registry name other content found => ?_⟩, Prod.ext rfl ledger⟩
    rcases found_of_set (files registry name) found with ⟨rfl, rfl, rfl, rfl⟩ | before
    · exact ⟨now, request, proper, rfl, rfl, rfl⟩
    · exact filed.written registry name other content before

theorem create_ledger {now : Instant} (proper : now.Proper) {request : PutRequest}
    (accepted : Accepts (.create request)) :
    (Folders.create now request s).2.Filed ∧
      ((Folders.create now request s).1.map Receipt.undated, (Folders.create now request s).2.ledger) =
        s.ledger.create request := by
  have creates := s.creates request
  have given := @given_creation request s
  rw [create_eq]
  unfold Ledger.create
  rw [filed.orderly.editions_ledger, last?_mapValues]
  generalize s.creation request = decision at creates given ⊢
  cases creates with
  | refused refused => exact absurd (accepted.storable rfl) refused
  | taken _ some =>
    obtain ⟨entry, last⟩ := Option.ne_none_iff_exists'.mp fun none => some (last?_eq_none.mp none)
    rw [last]
    exact ⟨filed, rfl⟩
  | added _ bare =>
    rw [bare]
    exact filed.write_ledger proper accepted (given rfl)

theorem update_ledger {now : Instant} (proper : now.Proper) {request : PutRequest}
    (accepted : Accepts (.update request)) :
    (Folders.update now request s).2.Filed ∧
      ((Folders.update now request s).1.map Receipt.undated, (Folders.update now request s).2.ledger) =
        s.ledger.update request := by
  have revises := s.revises request
  have given := @given_revision request s
  rw [update_eq]
  unfold Ledger.update
  rw [filed.orderly.editions_ledger, last?_mapValues]
  generalize s.revision request = decision at revises given ⊢
  have told {id : VersionId} {content : FileContent} {latest : Described}
      (greatest : (s.files request.registry request.name).last? = some (id, content))
      (readable : Folders.read content = .ok latest) : (editionOf content).content = latest.content := by
    obtain ⟨d, readable', undated⟩ := filed.reads ((s.sorted_files _ _).last?_eq_some_iff.mp greatest).1
    cases readable.symm.trans readable'
    exact (congrArg Described.content undated).symm
  cases revises with
  | refused refused => exact absurd (accepted.storable rfl) refused
  | unknown _ none =>
    rw [none]
    exact ⟨filed, rfl⟩
  | unread _ greatest unread =>
    obtain ⟨_, readable, -⟩ := filed.reads ((s.sorted_files _ _).last?_eq_some_iff.mp greatest).1
    cases unread.symm.trans readable
  | unchanged _ greatest readable same =>
    rw [greatest]
    simp only [Option.map_some, told greatest readable, if_pos same]
    exact ⟨filed, rfl⟩
  | added _ greatest readable differs =>
    rw [greatest]
    simp only [Option.map_some, told greatest readable, if_neg differs]
    exact filed.write_ledger proper accepted (given rfl)

end

end Filed

instance : LedgerDirectory Folders where
  ledger := ledger
  Kept := Filed
  Accepts := Accepts
  answer_law {now request s} proper filed accepted := by
    cases request with
    | listSchemas request =>
      have component := (accepted request.registry List.mem_cons_self).1
      exact ⟨filed, Prod.ext (congrArg DirectoryReply.schemas (filed.listSchemas_ledger now component)) rfl⟩
    | listVersions registry name token =>
      have answered := filed.listVersions_ledger token (accepted.storable rfl)
      exact ⟨filed, Prod.ext (congrArg DirectoryReply.versions answered) rfl⟩
    | describe registry name version =>
      have answered := filed.describe_ledger version (accepted.storable rfl)
      exact ⟨filed, Prod.ext (congrArg DirectoryReply.described answered) rfl⟩
    | create request =>
      obtain ⟨filed', answered⟩ := filed.create_ledger proper accepted
      exact ⟨filed', congrArg (Prod.map DirectoryReply.receipt id) answered⟩
    | update request =>
      obtain ⟨filed', answered⟩ := filed.update_ledger proper accepted
      exact ⟨filed', congrArg (Prod.map DirectoryReply.receipt id) answered⟩

end Schemata.Folders
