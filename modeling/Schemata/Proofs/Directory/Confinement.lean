import Schemata.Proofs.Directory.Filed
import Schemata.Proofs.Route

/-! A request to a directory of files keeps to the folder of its schema. What is written elsewhere in the tree, and
what is answered for two trees that have the same there, is as it would be without the others' files. A name that
could lead out of its folder is refused, and nothing is changed. -/
namespace Schemata

open FileTree Table

namespace FileTree

/-- The content of the file at a path; a folder has none. -/
def look? (path : FilePath) (tree : FileTree) : Option (Option FileContent) :=
  (tree.find? path).map fun
    | file content => some content
    | folder _ => none

theorem look?_congr {path : FilePath} {s t : FileTree} (same : s.find? path = t.find? path) :
    s.look? path = t.look? path := by rw [look?, look?, same]

theorem look?_cons {name : String} {rest : FilePath} {entries : Table String FileTree} {inner : FileTree}
    (present : entries.get? name = some inner) : (folder entries).look? (name :: rest) = inner.look? rest := by
  rw [look?, find?_cons, present, Option.bind_some, look?]

theorem look?_of_folder {path : FilePath} {tree : FileTree} {entries : Table String FileTree}
    (there : tree.find? path = some (folder entries)) : tree.look? path = some none := by
  rw [look?, there]
  rfl

/-- Making folders shows folders where nothing was, on the way to the last of them. -/
theorem look?_makeFolders (path other : FilePath) (tree : FileTree) :
    (tree.makeFolders path).1.look? other = tree.look? other ∨
      other <+: path ∧ tree.look? other = none ∧ (tree.makeFolders path).1.look? other = some none := by
  by_cases inside : other <+: path
  · induction path generalizing other tree with
    | nil => exact .inl (by cases tree <;> rfl)
    | cons name rest ih =>
      cases tree with
      | file content => exact .inl rfl
      | folder entries =>
        cases other with
        | nil =>
          left
          rcases makeFolders_top name rest entries with unchanged | ⟨inner, changed⟩
          · rw [unchanged]
          · rw [changed]
            rfl
        | cons first others =>
          obtain ⟨rfl, below⟩ := List.cons_prefix_cons.mp inside
          cases present : entries.get? first with
          | some inner =>
            rw [makeFolders_present rest present, look?_cons (get?_insert_same _ _ _), look?_cons present]
            exact (ih others inner below).imp id fun made => ⟨inside, made.2⟩
          | none =>
            have missing : (folder entries).look? (first :: others) = none := by
              rw [look?, find?_cons, present]
              rfl
            rw [makeFolders_missing rest present]
            split
            · rw [look?_cons (get?_insert_same _ _ _), missing]
              rcases ih others emptyFolder below with same | made
              · cases others with
                | nil => exact .inr ⟨inside, rfl, same⟩
                | cons next more => exact .inl same
              · exact .inr ⟨inside, rfl, made.2.2⟩
            · exact .inl rfl
  · exact .inl (look?_congr (find?_makeFolders inside tree))

end FileTree

namespace Folders

theorem plain_of_isComponent {name : String} (component : isComponent name = true) : Plain name := by
  unfold isComponent at component
  split at component
  · cases component
  · cases component
  · rename_i empty noPoint
    rw [Bool.and_eq_true, decide_eq_true_eq] at component
    refine ⟨?_, component.1, ?_, ?_⟩
    · rintro rfl
      exact empty rfl
    · rintro rfl
      exact noPoint [] rfl
    · rintro rfl
      exact noPoint ['.'] rfl

theorem plain_versionFile (n : Nat) : Plain (versionFile (.ofNat n)) := by
  have chars : (versionFile (.ofNat n)).toList = Text.decimal n ++ '.' :: suffix := by
    rw [toList_versionFile, VersionId.ofNat, String.toList_ofList]
  have some := Text.decimal_ne_nil n
  have long (short : String) (few : short.toList.length < 5) : versionFile (.ofNat n) ≠ short := by
    rintro rfl
    rw [chars, List.length_append] at few
    simp [suffix] at few
  refine ⟨long _ (by decide), ?_, long _ (by decide), long _ (by decide)⟩
  rw [chars, List.mem_append]
  rintro (inside | inside)
  · cases Text.decimal_digits n _ inside
  · simp [suffix] at inside

/-- From one state of a directory to another, folders may have been made on the way to that of a schema, and one file
with a number for its name may have been written into it. Nothing else has changed. -/
structure Confined (registry name : String) (s s' : Folders) : Prop where
  root : s'.root = s.root
  pageSize : s'.pageSize = s.pageSize
  seen : ∃ n text, ∀ path, s'.tree.look? path = s.tree.look? path ∨
    path <+: s.root ++ [registry, name] ∧ s.tree.look? path = none ∧ s'.tree.look? path = some none ∨
    path = s.root ++ [registry, name] ++ [versionFile (.ofNat n)] ∧ s'.tree.look? path = some (some (.text text))
  /-- What is beside the way to the schema, and not in its folder, has stayed. -/
  aside : ∀ path, ¬ path <+: s.root ++ [registry, name] → ¬ s.root ++ [registry, name] <+: path →
    s'.tree.find? path = s.tree.find? path
  /-- No folder can be made that could not be made before, and none has become impossible. -/
  admits : ∀ path, path.length ≤ (s.root ++ [registry, name]).length → s'.tree.admits path = s.tree.admits path

theorem Confined.refl (registry name : String) (s : Folders) : s.Confined registry name s :=
  ⟨rfl, rfl, ⟨0, "", fun _ => .inl rfl⟩, fun _ _ _ => rfl, fun _ _ => rfl⟩

section
variable {s : Folders} {registry name : String}

theorem confined_withFolder : s.Confined registry name (s.withFolder registry name) where
  root := rfl
  pageSize := rfl
  seen := ⟨0, "", fun path => (look?_makeFolders _ path s.tree).imp id .inl⟩
  aside _ above _ := find?_makeFolders above s.tree
  admits _ _ := admits_makeFolders s.tree

/-- A file written into the schema's folder, after that was made. -/
theorem confined_put {n : Nat} {text : String} {tree : FileTree}
    (written : writeFile? (.text text) (s.root ++ [registry, name] ++ [versionFile (.ofNat n)])
      (s.withFolder registry name).tree = some tree) : s.Confined registry name { s with tree } where
  root := rfl
  pageSize := rfl
  seen := by
    obtain ⟨entries, made, there⟩ := folder?_writeFile written
    refine ⟨n, text, fun path => ?_⟩
    by_cases inside : path <+: s.root ++ [registry, name] ++ [versionFile (.ofNat n)]
    · rcases List.prefix_concat_iff.mp inside with rfl | above
      · refine .inr (.inr ⟨rfl, ?_⟩)
        rw [look?, find?_append, folder?_eq_some_iff.mp there, Option.bind_some, find?_cons, get?_insert_same]
        rfl
      · -- On the way, the folders are those that were made.
        obtain ⟨_, before⟩ := folder_on_way made above
        obtain ⟨_, after⟩ := folder_on_way there above
        have same : tree.look? path = (s.withFolder registry name).tree.look? path := by
          rw [look?_of_folder after, look?_of_folder before]
        rw [same]
        exact (look?_makeFolders _ path s.tree).imp id .inl
    · have same : tree.look? path = (s.withFolder registry name).tree.look? path :=
        look?_congr (find?_writeFile inside written)
      rw [same]
      exact (look?_makeFolders _ path s.tree).imp id .inl
  aside path above below := by
    have apart : ¬ path <+: s.root ++ [registry, name] ++ [versionFile (.ofNat n)] := fun inside =>
      (List.prefix_concat_iff.mp inside).elim (fun same => below (same ▸ List.prefix_append _ _)) above
    exact (find?_writeFile apart written).trans (find?_makeFolders above s.tree)
  admits path short := by
    obtain ⟨entries, made, there⟩ := folder?_writeFile written
    have before := confined_withFolder.admits path short
    by_cases inside : path <+: s.root ++ [registry, name] ++ [versionFile (.ofNat n)]
    · have above : path <+: s.root ++ [registry, name] := by
        refine (List.prefix_concat_iff.mp inside).resolve_left fun same => ?_
        rw [same, List.length_append] at short
        simp at short
      obtain ⟨_, found⟩ := folder_on_way made above
      obtain ⟨_, found'⟩ := folder_on_way there above
      rw [← before, admits_of_folder found, admits_of_folder found']
    · exact (admits_congr (find?_writeFile inside written)).trans before

end

section
variable (now : Instant) (request : PutRequest) (s : Folders)

theorem confined_write (n : Nat) :
    s.Confined request.registry request.name (write now request (.ofNat n) s).2 := by
  have ends := write_ends now request (.ofNat n) s
  generalize write now request (.ofNat n) s = result at ends ⊢
  cases ends with
  | unnamed _ => exact .refl _ _ _
  | blocked _ => exact confined_withFolder
  | unwritten _ => exact confined_withFolder
  | written written => exact confined_put written

theorem confined_perform {decision : Except DirectoryError VersionId}
    (given : ∀ id, decision = .ok id → Given request id) :
    s.Confined request.registry request.name (perform now request s decision).2 := by
  cases decision with
  | error e => exact .refl _ _ _
  | ok id =>
    obtain ⟨n, -, rfl⟩ := (given id rfl).number
    exact confined_write now request s n

theorem confined_create : s.Confined request.registry request.name (create now request s).2 := by
  rw [create_eq]
  exact confined_perform now request s fun _ => given_creation

theorem confined_update : s.Confined request.registry request.name (update now request s).2 := by
  rw [update_eq]
  exact confined_perform now request s fun _ => given_revision

end

/-- Two directories with one root have the same in the folder of a schema, and on the way to it folders stand or can be
made at the same places. -/
structure Alike (registry name : String) (s t : Folders) : Prop where
  root : t.root = s.root
  pageSize : t.pageSize = s.pageSize
  inside : t.tree.find? (s.root ++ [registry, name]) = s.tree.find? (s.root ++ [registry, name])
  onWay : ∀ path, path <+: s.root ++ [registry, name] → t.tree.admits path = s.tree.admits path

section
variable {registry name : String} {s t : Folders} (alike : s.Alike registry name t)
include alike

theorem Alike.versions?_eq : t.versions? registry name = s.versions? registry name := by
  by_cases storable : Storable registry name
  · rw [versions?_of_storable storable, versions?_of_storable storable, schemaFolder?, schemaFolder?, alike.root,
      folder?_congr alike.inside]
  · obtain ⟨reason, rejected⟩ := versions?_rejected storable
    rw [rejected, rejected]

theorem Alike.makes_eq : (t.tree.makeFolders (s.root ++ [registry, name])).2 =
    (s.tree.makeFolders (s.root ++ [registry, name])).2 := by
  rw [Bool.eq_iff_iff, makeFolders_iff, makeFolders_iff]
  exact forall₂_congr fun path inside => by rw [alike.onWay path inside]

/-- What others than the two calls do to two directories that are alike. -/
theorem Alike.of_confined {s' t' : Folders} (confinedS : s.Confined registry name s')
    (confinedT : t.Confined registry name t')
    (inside : t'.tree.find? (s.root ++ [registry, name]) = s'.tree.find? (s.root ++ [registry, name])) :
    s'.Alike registry name t' where
  root := confinedT.root.trans (alike.root.trans confinedS.root.symm)
  pageSize := confinedT.pageSize.trans (alike.pageSize.trans confinedS.pageSize.symm)
  inside := by rwa [confinedS.root]
  onWay path onWay := by
    rw [confinedS.root] at onWay
    rw [confinedS.admits path onWay.length_le, confinedT.admits path (by rw [alike.root]; exact onWay.length_le)]
    exact alike.onWay path onWay

theorem Alike.folder_eq : (t.withFolder registry name).tree.find? (s.root ++ [registry, name]) =
    (s.withFolder registry name).tree.find? (s.root ++ [registry, name]) := by
  rw [withFolder, withFolder, alike.root]
  simp only
  rw [find?_makeFolders_self, find?_makeFolders_self, alike.makes_eq, alike.inside, folder?_congr alike.inside]

end

theorem writeFile?_congr {content : FileContent} {path : FilePath} {name : String} {s t : FileTree}
    (same : t.find? path = s.find? path) :
    (writeFile? content (path ++ [name]) t = none ∧ writeFile? content (path ++ [name]) s = none) ∨
    ∃ s' t', writeFile? content (path ++ [name]) t = some t' ∧ writeFile? content (path ++ [name]) s = some s' ∧
      t'.find? path = s'.find? path := by
  have both : (writeFile? content (path ++ [name]) t).isSome = (writeFile? content (path ++ [name]) s).isSome := by
    rw [isSome_writeFile?, isSome_writeFile?, folder?_congr same]
  cases writtenS : writeFile? content (path ++ [name]) s with
  | none =>
    rw [writtenS, Option.isSome_none, Option.isSome_eq_false_iff, Option.isNone_iff_eq_none] at both
    exact .inl ⟨both, rfl⟩
  | some s' =>
    rw [writtenS, Option.isSome_some, Option.isSome_iff_exists] at both
    obtain ⟨t', writtenT⟩ := both
    obtain ⟨entries, before, after⟩ := folder?_writeFile writtenS
    obtain ⟨entries', before', after'⟩ := folder?_writeFile writtenT
    obtain rfl : entries' = entries := by
      rw [folder?_congr same, before] at before'
      exact (Option.some.inj before').symm
    refine .inr ⟨s', t', writtenT, rfl, ?_⟩
    rw [folder?_eq_some_iff.mp after, folder?_eq_some_iff.mp after']

section
variable {now : Instant} {request : PutRequest} {s t : Folders}
  (alike : s.Alike request.registry request.name t)
include alike

theorem Alike.write_eq (n : Nat) :
    (write now request (.ofNat n) t).1 = (write now request (.ofNat n) s).1 ∧
      (write now request (.ofNat n) s).2.Alike request.registry request.name
        (write now request (.ofNat n) t).2 := by
  have stays := alike.of_confined (confined_write now request s n) (confined_write now request t n)
  suffices (write now request (.ofNat n) t).1 = (write now request (.ofNat n) s).1 ∧
      (write now request (.ofNat n) t).2.tree.find? (s.root ++ [request.registry, request.name]) =
        (write now request (.ofNat n) s).2.tree.find? (s.root ++ [request.registry, request.name]) from
    ⟨this.1, stays this.2⟩
  clear stays
  unfold write
  dsimp only
  rw [alike.root]
  split
  · exact ⟨rfl, alike.inside⟩
  · have made := alike.makes_eq
    have placed := alike.folder_eq
    rw [withFolder, withFolder, alike.root] at placed
    generalize s.tree.makeFolders (s.root ++ [request.registry, request.name]) = madeS at made placed ⊢
    generalize t.tree.makeFolders (s.root ++ [request.registry, request.name]) = madeT at made placed ⊢
    obtain ⟨treeS, doneS⟩ := madeS
    obtain ⟨treeT, doneT⟩ := madeT
    dsimp only at made placed
    subst made
    cases doneT with
    | false => exact ⟨rfl, placed⟩
    | true =>
      dsimp only
      rcases writeFile?_congr placed with ⟨failsT, failsS⟩ | ⟨afterS, afterT, writtenT, writtenS, same⟩
      · rw [failsT, failsS]
        exact ⟨rfl, placed⟩
      · rw [writtenT, writtenS]
        exact ⟨rfl, same⟩

theorem Alike.perform_eq {decision : Except DirectoryError VersionId}
    (given : ∀ id, decision = .ok id → Given request id) :
    (perform now request t decision).1 = (perform now request s decision).1 ∧
      (perform now request s decision).2.Alike request.registry request.name (perform now request t decision).2 := by
  cases decision with
  | error e => exact ⟨rfl, alike⟩
  | ok id =>
    obtain ⟨n, -, rfl⟩ := (given id rfl).number
    exact alike.write_eq n

theorem Alike.create_eq : (create now request t).1 = (create now request s).1 ∧
    (create now request s).2.Alike request.registry request.name (create now request t).2 := by
  have same : t.creation request = s.creation request := by rw [creation, creation, alike.versions?_eq]
  rw [Folders.create_eq, Folders.create_eq, same]
  exact alike.perform_eq fun _ => given_creation

theorem Alike.update_eq : (update now request t).1 = (update now request s).1 ∧
    (update now request s).2.Alike request.registry request.name (update now request t).2 := by
  have same : t.revision request = s.revision request := by rw [revision, revision, alike.versions?_eq]
  rw [Folders.update_eq, Folders.update_eq, same]
  exact alike.perform_eq fun _ => given_revision

end

end Folders

/-- The failure that a reply is, if it is one. -/
def DirectoryReply.error? : DirectoryReply → Option DirectoryError
  | schemas (.error e) | versions (.error e) | described (.error e) | receipt (.error e) => some e
  | _ => none

namespace Folders

section
variable (now : Instant) (s : Folders) {request : DirectoryRequest} {registry name : String}
  (named : request.names = [registry, name])
include named

/-- A request with a name that cannot be that of a folder is rejected, and changes nothing. -/
theorem answer_refused (refused : ¬ Storable registry name) : (request.answer now s).2 = s ∧
    ∃ reason, (request.answer now s).1.error? = some (.rejected reason) := by
  obtain ⟨reason, rejected⟩ := versions?_rejected refused
  cases request <;> cases named
  all_goals
    simp only [DirectoryRequest.answer, Directory.listVersions, Directory.describe, Directory.create, Directory.update,
      listVersions, describe, create, update, rejected]
    exact ⟨rfl, reason, rfl⟩

theorem answer_confined : s.Confined registry name (request.answer now s).2 := by
  cases request with
  | listSchemas request => cases named
  | listVersions registry' name' token => exact .refl _ _ _
  | describe registry' name' version => exact .refl _ _ _
  | create request =>
    cases named
    exact confined_create now request s
  | update request =>
    cases named
    exact confined_update now request s

variable {s} {t : Folders} (alike : s.Alike registry name t)
include alike

theorem answer_alike : (request.answer now t).1 = (request.answer now s).1 ∧
    (request.answer now s).2.Alike registry name (request.answer now t).2 := by
  cases request with
  | listSchemas request => cases named
  | listVersions registry' name' token =>
    cases named
    have same : (listVersions registry name token t).1 = (listVersions registry name token s).1 := by
      simp only [listVersions, alike.versions?_eq, alike.pageSize]
    exact ⟨congrArg DirectoryReply.versions same, alike⟩
  | describe registry' name' version =>
    cases named
    have same : (describe registry name version t).1 = (describe registry name version s).1 := by
      simp only [describe, alike.versions?_eq]
    exact ⟨congrArg DirectoryReply.described same, alike⟩
  | create request =>
    cases named
    exact ⟨congrArg DirectoryReply.receipt alike.create_eq.1, alike.create_eq.2⟩
  | update request =>
    cases named
    exact ⟨congrArg DirectoryReply.receipt alike.update_eq.1, alike.update_eq.2⟩

end

theorem not_inside_other {root : FilePath} {registry name registry' name' : String}
    (other : ¬ (registry' = registry ∧ name' = name)) {path : FilePath} (inside : root ++ [registry, name] <+: path) :
    ¬ root ++ [registry', name'] <+: path := by
  obtain ⟨more, rfl⟩ := inside
  rw [List.append_assoc]
  exact fun both => other (same_schema_of_inside both)

theorem not_on_way_other {root : FilePath} {registry name registry' name' : String}
    (other : ¬ (registry' = registry ∧ name' = name)) (more : FilePath) :
    ¬ root ++ registry' :: name' :: more <+: root ++ [registry, name] := by
  intro onWay
  have inside : root ++ [registry', name'] <+: root ++ [registry, name] :=
    List.IsPrefix.trans ((List.prefix_append_right_inj root).mpr ⟨more, rfl⟩) onWay
  exact other (same_schema_of_inside inside)

section
variable {s s' : Folders} {registry name registry' name' : String} (other : ¬ (registry' = registry ∧ name' = name))
include other

theorem Confined.other_stays (confined : s.Confined registry name s') (more : FilePath) :
    s'.tree.find? (s.root ++ registry' :: name' :: more) = s.tree.find? (s.root ++ registry' :: name' :: more) := by
  refine confined.aside _ (not_on_way_other other more) fun inside => ?_
  exact not_inside_other other inside ((List.prefix_append_right_inj s.root).mpr ⟨more, rfl⟩)

/-- What is done to one schema leaves the directory alike for every other. -/
theorem Confined.alike_other (confined : s.Confined registry name s') : s.Alike registry' name' s' where
  root := confined.root
  pageSize := confined.pageSize
  inside := confined.other_stays other []
  onWay path onWay := confined.admits path (by simpa using onWay.length_le)

end

theorem Alike.refl (registry name : String) (s : Folders) : s.Alike registry name s := ⟨rfl, rfl, rfl, fun _ _ => rfl⟩

theorem Alike.of_both {registry name : String} {s t s' : Folders} (first : s.Alike registry name s')
    (second : s.Alike registry name t) : s'.Alike registry name t where
  root := second.root.trans first.root.symm
  pageSize := second.pageSize.trans first.pageSize.symm
  inside := by
    rw [first.root]
    exact second.inside.trans first.inside.symm
  onWay path onWay := by
    rw [first.root] at onWay
    exact (second.onWay path onWay).trans (first.onWay path onWay).symm

/-- A listing of schemas sees the folder of its registry, and nothing if the name cannot be that of a folder. -/
theorem listSchemas_confined (now : Instant) (request : ListRequest) (s : Folders) :
    (listSchemas now request s).2 = s ∧
      ((¬ isComponent request.registry = true ∧
          ∃ reason, ∀ t, (listSchemas now request t).1 = .error (.rejected reason)) ∨
        isComponent request.registry = true ∧ ∀ t : Folders, t.pageSize = s.pageSize →
          t.tree.find? (t.root ++ [request.registry]) = s.tree.find? (s.root ++ [request.registry]) →
          (listSchemas now request t).1 = (listSchemas now request s).1) := by
  refine ⟨rfl, ?_⟩
  by_cases component : isComponent request.registry = true
  · refine .inr ⟨component, fun t pageSize same => ?_⟩
    have listed : t.wanted request = s.wanted request := by
      rw [wanted, wanted, folder?, folder?, same]
    simp only [listSchemas, listed, pageSize]
  · refine .inl ⟨component, Text.quoted request.registry ++ " cannot be stored as a directory name", fun t => ?_⟩
    simp only [listSchemas, checkComponent, if_neg component]

/-- Behind the written path of the root, accepted names lead to the folder of their schema and to its files. -/
theorem leads_to_schema {tree : FileTree} {here root : FilePath} {base registry name : String} (some : base ≠ "")
    (leads : tree.LeadsOnly here base root) (storable : Storable registry name) :
    tree.LeadsOnly here (Route.join base registry) (root ++ [registry]) ∧
      tree.LeadsOnly here (Route.join (Route.join base registry) name) (root ++ [registry, name]) ∧
      ∀ n, tree.LeadsOnly here (Route.join (Route.join (Route.join base registry) name) (versionFile (.ofNat n)))
        (root ++ [registry, name] ++ [versionFile (.ofNat n)]) := by
  have plainRegistry := plain_of_isComponent storable.1
  have plainName := plain_of_isComponent storable.2
  have toRegistry := plainRegistry.leadsOnly_join some leads
  have toSchema := plainName.leadsOnly_join (plainRegistry.join_ne_empty some) toRegistry
  rw [List.append_assoc] at toSchema
  refine ⟨toRegistry, toSchema, fun n => ?_⟩
  exact (plain_versionFile n).leadsOnly_join (plainName.join_ne_empty (plainRegistry.join_ne_empty some)) toSchema

/-- Whatever the names and the tree are: a request for a schema is rejected and changes nothing, or it changes nothing
outside of that schema's folder and the way to it, and its answer depends on nothing else. The folders are where the
written names lead to, and two of them have nothing in common. A listing of schemas writes nothing and reads its
registry's folder. -/
theorem requests_confined (now : Instant) (s : Folders) :
    (∀ (request : DirectoryRequest) (registry name : String), request.names = [registry, name] →
      (¬ Storable registry name ∧ (request.answer now s).2 = s ∧
          ∃ reason, (request.answer now s).1.error? = some (.rejected reason)) ∨
        Storable registry name ∧ s.Confined registry name (request.answer now s).2 ∧
          (∀ registry' name', ¬ (registry' = registry ∧ name' = name) → ∀ more,
            (request.answer now s).2.tree.find? (s.root ++ registry' :: name' :: more) =
              s.tree.find? (s.root ++ registry' :: name' :: more)) ∧
          ∀ t, s.Alike registry name t → (request.answer now t).1 = (request.answer now s).1 ∧
            (request.answer now s).2.Alike registry name (request.answer now t).2) ∧
    (∀ registry name registry' name', ¬ (registry' = registry ∧ name' = name) → ∀ path,
      s.root ++ [registry, name] <+: path → ¬ s.root ++ [registry', name'] <+: path) ∧
    (∀ here base registry name, base ≠ "" → s.tree.LeadsOnly here base s.root → Storable registry name →
      s.tree.LeadsOnly here (Route.join base registry) (s.root ++ [registry]) ∧
      s.tree.LeadsOnly here (Route.join (Route.join base registry) name) (s.root ++ [registry, name]) ∧
      ∀ n, s.tree.LeadsOnly here (Route.join (Route.join (Route.join base registry) name) (versionFile (.ofNat n)))
        (s.root ++ [registry, name] ++ [versionFile (.ofNat n)])) ∧
    ∀ request, (listSchemas now request s).2 = s ∧
      ((¬ isComponent request.registry = true ∧
          ∃ reason, ∀ t, (listSchemas now request t).1 = .error (.rejected reason)) ∨
        isComponent request.registry = true ∧ ∀ t : Folders, t.pageSize = s.pageSize →
          t.tree.find? (t.root ++ [request.registry]) = s.tree.find? (s.root ++ [request.registry]) →
          (listSchemas now request t).1 = (listSchemas now request s).1) := by
  refine ⟨fun request registry name named => ?_, fun _ _ _ _ other _ => not_inside_other other,
    fun _ _ _ _ some leads storable => leads_to_schema some leads storable,
    fun request => listSchemas_confined now request s⟩
  by_cases storable : Storable registry name
  · have confined := answer_confined now s named
    exact .inr ⟨storable, confined, fun _ _ other more => confined.other_stays other more,
      fun t alike => answer_alike now named alike⟩
  · exact .inl ⟨storable, answer_refused now s named storable⟩

/-- A root beside a file, with a schema of others below it. -/
def sampleShared : Folders where
  tree := .folder ⟨[("notes", .file (.text "mine")), ("store", .folder ⟨[("Shop", .folder ⟨[("shop.Order",
    .folder ⟨[("1.json", .file (.text "theirs"))]⟩)]⟩)]⟩)]⟩
  root := ["store"]
  pageSize := 1

def samplePut (registry name : String) : PutRequest := ⟨registry, name, "content", .jsonSchemaDraft4, none⟩

theorem sampleShared_confined :
    (create .epoch (samplePut "Shop" "shop.Item") sampleShared).1.toOption.isSome = true ∧
    sampleShared.Confined "Shop" "shop.Item" (create .epoch (samplePut "Shop" "shop.Item") sampleShared).2 ∧
    (∀ more, (create .epoch (samplePut "Shop" "shop.Item") sampleShared).2.tree.find?
        (["store", "Shop", "shop.Order"] ++ more) = sampleShared.tree.find? (["store", "Shop", "shop.Order"] ++ more)) ∧
    (create .epoch (samplePut ".." "notes") sampleShared).2 = sampleShared ∧
    sampleShared.tree.LeadsOnly [] (Route.join (Route.join "store" "Shop") "shop.Item")
      ["store", "Shop", "shop.Item"] := by
  obtain ⟨requests, -, leads, -⟩ := requests_confined .epoch sampleShared
  have storable : Storable "Shop" "shop.Item" := ⟨by decide, by decide⟩
  have refused : ¬ Storable ".." "notes" := fun both => absurd both.1 (by decide)
  have rooted : sampleShared.tree.LeadsOnly [] "store" ["store"] :=
    (plain_of_isComponent (by decide)).leadsOnly sampleShared.tree []
  refine ⟨by decide +kernel, ?_⟩
  obtain ⟨no, -⟩ | ⟨-, confined, others, -⟩ := requests (.create (samplePut "Shop" "shop.Item")) _ _ rfl
  · exact absurd storable no
  · obtain ⟨-, same, -⟩ | ⟨yes, -⟩ := requests (.create (samplePut ".." "notes")) _ _ rfl
    · exact ⟨confined, others "Shop" "shop.Order" (by decide), same, (leads _ _ _ _ (by decide) rooted storable).2.1⟩
    · exact absurd yes refused

/-- The replies to those requests of a run that are for one schema, with the time of each request. -/
def repliesFor (registry name : String) (s : Folders) : List (Instant × DirectoryRequest) → List DirectoryReply
  | [] => []
  | (now, request) :: rest =>
    if request.names = [registry, name] then
      (request.answer now s).1 :: repliesFor registry name (request.answer now s).2 rest
    else repliesFor registry name (request.answer now s).2 rest

theorem alike_of_other {registry name : String} (now : Instant) {request : DirectoryRequest} (s : Folders)
    (other : request.names ≠ [registry, name]) : s.Alike registry name (request.answer now s).2 := by
  have apart {registry' name' : String} (named : request.names = [registry', name']) :
      ¬ (registry = registry' ∧ name = name') := by
    rintro ⟨rfl, rfl⟩
    exact other named
  cases request with
  | listSchemas request => exact .refl _ _ _
  | listVersions registry' name' token => exact (answer_confined now s rfl).alike_other (apart rfl)
  | describe registry' name' version => exact (answer_confined now s rfl).alike_other (apart rfl)
  | create request => exact (answer_confined now s rfl).alike_other (apart rfl)
  | update request => exact (answer_confined now s rfl).alike_other (apart rfl)

/-- The replies for a schema are the same without the requests for others. -/
theorem repliesFor_own {registry name : String} {run : List (Instant × DirectoryRequest)} {s t : Folders}
    (alike : s.Alike registry name t) :
    repliesFor registry name t (run.filter fun (_, request) => request.names = [registry, name]) =
      repliesFor registry name s run := by
  -- By induction on the run, for directories that are alike for the schema.
  induction run generalizing s t with
  | nil => rfl
  | cons entry rest ih =>
    obtain ⟨now, request⟩ := entry
    by_cases own : request.names = [registry, name]
    · obtain ⟨same, alike'⟩ := answer_alike now own alike
      rw [List.filter_cons_of_pos (by simpa using own), repliesFor, repliesFor, if_pos own, if_pos own, same, ih alike']
    · rw [List.filter_cons_of_neg (by simpa using own), repliesFor, if_neg own]
      exact ih ((alike_of_other now s own).of_both alike)

end Folders

end Schemata
