import Schemata.Directory.Memory
import Schemata.Proofs.Directory.Lawful

/-! The shelves of a directory in memory, and what its calls do to them. -/
namespace Schemata.Memory

open Table

/-- The versions of a schema; there are none if the schema is not known. -/
def versions (s : Memory) (registry name : String) : Versions :=
  (s.versions? registry name).getD Table.empty

def shelf (s : Memory) : Shelves := fun registry name =>
  (s.versions registry name).mapValues fun stored => some stored.content

/-- All tables are in order, and a known schema has a version. -/
structure Orderly (s : Memory) : Prop where
  names : ∀ registry, (s.registry registry).Sorted
  versions : ∀ registry name found, s.versions? registry name = some found →
    found.Sorted ∧ found ≠ Table.empty

theorem Orderly.sorted {s : Memory} (orderly : s.Orderly) (registry name : String) :
    (s.versions registry name).Sorted := by
  unfold Memory.versions
  cases found : s.versions? registry name with
  | none => exact sorted_empty
  | some versions => exact (orderly.versions registry name versions found).1

theorem Orderly.sorted_shelf {s : Memory} (orderly : s.Orderly) (registry name : String) :
    (s.shelf registry name).Sorted := sorted_mapValues (orderly.sorted registry name)

theorem versions?_putVersions (s : Memory) (registry name : String) (versions : Versions)
    (registry' name' : String) : (s.putVersions registry name versions).versions? registry' name' =
      if registry' = registry ∧ name' = name then some versions else s.versions? registry' name' := by
  unfold versions? Memory.registry putVersions
  by_cases first : registry' = registry
  · subst first
    by_cases second : name' = name
    · subst second
      simp
    · simp [second, get?_insert_other second, Memory.registry]
  · simp [first, get?_insert_other first]

theorem Orderly.putVersions {s : Memory} (orderly : s.Orderly) {registry name : String}
    {versions : Versions} (sorted : versions.Sorted) (some : versions ≠ Table.empty) :
    (s.putVersions registry name versions).Orderly where
  names registry' := by
    by_cases same : registry' = registry
    · subst same
      have set : (s.putVersions registry' name versions).registry registry' =
          (s.registry registry').insert name versions := by
        simp [Memory.registry, Memory.putVersions]
      rw [set]
      exact sorted_insert (orderly.names registry') name versions
    · have kept : (s.putVersions registry name versions).registry registry' = s.registry registry' := by
        simp [Memory.registry, Memory.putVersions, get?_insert_other same]
      rw [kept]
      exact orderly.names registry'
  versions registry' name' found present := by
    rw [versions?_putVersions] at present
    split at present
    · cases present
      exact ⟨sorted, some⟩
    · exact orderly.versions registry' name' found present

theorem insert_ne_empty (versions : Versions) (id : VersionId) (stored : Stored) :
    versions.insert id stored ≠ Table.empty := by
  intro same
  have found := get?_insert_same versions id stored
  rw [same] at found
  cases found

/-- Setting a version sets it on its shelf. -/
theorem shelf_putVersions (s : Memory) (request : PutRequest) (id : VersionId) (now : Instant) :
    (s.putVersions request.registry request.name ((s.versions request.registry request.name).insert id
      ⟨request.content, request.description, request.format, now⟩)).shelf = s.shelf.put request id := by
  funext registry name
  simp only [shelf, Memory.versions, Shelves.put, versions?_putVersions]
  by_cases schema : registry = request.registry ∧ name = request.name
  · obtain ⟨rfl, rfl⟩ := schema
    simp [mapValues_insert]
  · rw [if_neg schema, if_neg schema]

section
variable {s : Memory} {registry name : String}

theorem versions_of_unknown (unknown : s.versions? registry name = none) :
    s.versions registry name = Table.empty := by
  rw [Memory.versions, unknown]
  rfl

theorem versions_of_known {versions : Versions} (known : s.versions? registry name = some versions) :
    s.versions registry name = versions := by
  rw [Memory.versions, known]
  rfl

theorem shelf_of_unknown (unknown : s.versions? registry name = none) : s.shelf registry name = Table.empty := by
  rw [shelf, versions_of_unknown unknown]
  rfl

theorem shelf_of_known {versions : Versions} (known : s.versions? registry name = some versions) :
    s.shelf registry name = versions.mapValues fun stored => some stored.content := by
  rw [shelf, versions_of_known known]

end

/-- A version that is not there is not described. -/
theorem content_describe (s : Memory) (registry name version : String) :
    (describe registry name (some version) s).1.toOption.map (·.content) =
      s.shelf.content registry name version := by
  simp only [Shelves.content, shelf, get?_mapValues, describe, Memory.versions]
  cases s.versions? registry name with
  | none => rfl
  | some versions =>
    simp only [Option.getD_some]
    cases versions.get? ⟨version⟩ <;> rfl

section
variable {now : Instant} {request : PutRequest}

theorem write_added {s : Memory} (orderly : s.Orderly) (id : VersionId) :
    (write now request (s.versions request.registry request.name) id s).2.Orderly ∧
      (write now request (s.versions request.registry request.name) id s).2.shelf = s.shelf.put request id :=
  ⟨orderly.putVersions (sorted_insert (orderly.sorted _ _) _ _) (insert_ne_empty _ _ _),
    shelf_putVersions s request id now⟩

theorem Orderly.counted {s : Memory} (orderly : s.Orderly) (calls : Calls) :
    ({ s with calls } : Memory).Orderly := ⟨orderly.names, orderly.versions⟩

/-- What is answered to a write, once it is known to fail or to get an identifier. -/
def perform (now : Instant) (request : PutRequest) (s : Memory) :
    Except DirectoryError VersionId → Except DirectoryError Receipt × Memory
  | .error e => (.error e, s)
  | .ok id => write now request (s.versions request.registry request.name) id s

theorem refusal_perform (s : Memory) (decision : Except DirectoryError VersionId) :
    (perform now request s decision).2.refusal = s.refusal := by cases decision <;> rfl

/-- The failure or the identifier that a creation gets. -/
def creation (s : Memory) (request : PutRequest) : Except DirectoryError VersionId :=
  match s.refusal with
  | some reason => .error (.rejected reason)
  | none =>
    match s.versions? request.registry request.name with
    | some _ => .error (.rejected ("schema " ++ request.name ++ " already exists"))
    | none => .ok .first

/-- The failure or the identifier that an update gets. -/
def revision (s : Memory) (request : PutRequest) : Except DirectoryError VersionId :=
  match s.refusal with
  | some reason => .error (.rejected reason)
  | none =>
    match s.versions? request.registry request.name with
    | none => .error (notFound request.name none)
    | some versions =>
      match versions.last? with
      | none => .ok .first
      | some (id, latest) =>
        if Checksum.ofText latest.content = Checksum.ofText request.content then .error (.conflict request.name)
        else .ok id.next

theorem create_eq (now : Instant) (request : PutRequest) (s : Memory) :
    ∃ calls, create now request s = perform now request { s with calls } (s.creation request) := by
  refine ⟨{ s.calls with create := s.calls.create + 1 }, ?_⟩
  obtain ⟨registries, pageSize, calls, _ | reason⟩ := s
  · unfold create creation
    dsimp only
    -- What is known of the schema does not depend on the counts.
    change (match versions? ⟨registries, pageSize, calls, none⟩ request.registry request.name with
      | some _ => _
      | none => _) = _
    cases known : versions? ⟨registries, pageSize, calls, none⟩ request.registry request.name with
    | some versions => rfl
    | none => exact congrArg (fun versions => write now request versions .first _) (versions_of_unknown known).symm
  · rfl

theorem update_eq (now : Instant) (request : PutRequest) (s : Memory) :
    ∃ calls, update now request s = perform now request { s with calls } (s.revision request) := by
  refine ⟨{ s.calls with update := s.calls.update + 1 }, ?_⟩
  obtain ⟨registries, pageSize, calls, _ | reason⟩ := s
  · unfold update revision
    dsimp only
    change (match versions? ⟨registries, pageSize, calls, none⟩ request.registry request.name with
      | none => _
      | some _ => _) = _
    cases known : versions? ⟨registries, pageSize, calls, none⟩ request.registry request.name with
    | none => rfl
    | some versions =>
      have same := (versions_of_known known).symm
      dsimp only
      rcases versions.last? with _ | ⟨id, latest⟩
      · exact congrArg (fun versions => write now request versions .first _) same
      · dsimp only
        split
        · rfl
        · exact congrArg (fun versions => write now request versions id.next _) same
  · rfl

/-- When a creation gets what. -/
inductive Creates (s : Memory) (request : PutRequest) : Except DirectoryError VersionId → Prop where
  | closed {reason : String} : s.refusal = some reason → Creates s request (.error (.rejected reason))
  | taken {versions : Versions} : s.refusal = none → s.versions? request.registry request.name = some versions →
    Creates s request (.error (.rejected ("schema " ++ request.name ++ " already exists")))
  | added : s.refusal = none → s.versions? request.registry request.name = none → Creates s request (.ok .first)

theorem creates (s : Memory) (request : PutRequest) : s.Creates request (s.creation request) := by
  unfold creation
  split
  · exact .closed ‹_›
  · split
    · exact .taken ‹_› ‹_›
    · exact .added ‹_› ‹_›

/-- When an update gets what; a known schema has a version. -/
inductive Revises (s : Memory) (request : PutRequest) : Except DirectoryError VersionId → Prop where
  | closed {reason : String} : s.refusal = some reason → Revises s request (.error (.rejected reason))
  | unknown : s.refusal = none → s.versions? request.registry request.name = none →
    Revises s request (.error (notFound request.name none))
  | unchanged {versions : Versions} {id : VersionId} {latest : Stored} : s.refusal = none →
    s.versions? request.registry request.name = some versions → versions.last? = some (id, latest) →
    Checksum.ofText latest.content = Checksum.ofText request.content →
    Revises s request (.error (.conflict request.name))
  | added {versions : Versions} {id : VersionId} {latest : Stored} : s.refusal = none →
    s.versions? request.registry request.name = some versions → versions.last? = some (id, latest) →
    Checksum.ofText latest.content ≠ Checksum.ofText request.content → Revises s request (.ok id.next)

theorem Orderly.revises {s : Memory} (orderly : s.Orderly) (request : PutRequest) :
    s.Revises request (s.revision request) := by
  unfold revision
  split
  · exact .closed ‹_›
  · split
    · exact .unknown ‹_› ‹_›
    · rename_i versions known
      split
      · rename_i none
        exact absurd (last?_eq_none.mp none) (orderly.versions _ _ _ known).2
      · split
        · exact .unchanged ‹_› known ‹_› ‹_›
        · exact .added ‹_› known ‹_› ‹_›

theorem last?_shelf {s : Memory} {registry name : String} {versions : Versions} {id : VersionId} {latest : Stored}
    (known : s.versions? registry name = some versions) (last : versions.last? = some (id, latest)) :
    (s.shelf registry name).last? = some (id, some latest.content) := by
  rw [shelf_of_known known, last?_mapValues, last]
  rfl

theorem create_cases {s : Memory} (orderly : s.Orderly) : (create now request s).2.Orderly ∧
    s.shelf.Created request (create now request s).1 (create now request s).2.shelf := by
  obtain ⟨calls, made⟩ := create_eq now request s
  have counted := orderly.counted calls
  have creates := s.creates request
  rw [made]
  generalize s.creation request = decision at creates ⊢
  cases creates with
  | closed _ => exact ⟨counted, .refused⟩
  | taken _ _ => exact ⟨counted, .refused⟩
  | added _ unknown =>
    obtain ⟨orderly', shelf⟩ := @write_added now request _ counted .first
    refine ⟨orderly', ?_⟩
    rw [perform, shelf]
    exact .added (shelf_of_unknown unknown) rfl rfl

theorem update_cases {s : Memory} (orderly : s.Orderly) : (update now request s).2.Orderly ∧
    s.shelf.Updated request (update now request s).1 (update now request s).2.shelf := by
  obtain ⟨calls, made⟩ := update_eq now request s
  have counted := orderly.counted calls
  have revises := orderly.revises request
  rw [made]
  generalize s.revision request = decision at revises ⊢
  cases revises with
  | closed _ => exact ⟨counted, .refused (by simp)⟩
  | unknown _ _ => exact ⟨counted, .refused (by simp [notFound])⟩
  | unchanged _ known last same => exact ⟨counted, .unchanged (last?_shelf known last) same⟩
  | @added versions id latest _ known last differs =>
    obtain ⟨orderly', shelf⟩ := @write_added now request _ counted id.next
    refine ⟨orderly', ?_⟩
    rw [perform, shelf]
    exact .added (last?_shelf known last) differs rfl rfl

end

def catalog (s : Memory) : Catalog := ⟨s.shelf, fun registry => (s.registry registry).keys⟩

theorem Orderly.catalog {s : Memory} (orderly : s.Orderly) : s.catalog.Orderly where
  sorted := orderly.sorted_shelf
  readable registry name id content found := by
    simp only [Memory.catalog, shelf, get?_mapValues, Option.map_eq_some_iff] at found
    obtain ⟨stored, -, rfl⟩ := found
    exact ⟨_, rfl⟩
  named registry name versions := by
    cases known : s.versions? registry name with
    | none => exact absurd (shelf_of_unknown known) versions
    | some found => exact List.mem_map.mpr ⟨_, mem_of_get? known, rfl⟩

theorem describe_describes (s : Memory) (orderly : s.Orderly) (registry name : String)
    (version : Option String) :
    (s.shelf registry name).Describes name version (describe registry name version s).1 := by
  have sorted := orderly.sorted_shelf registry name
  unfold describe
  cases known : s.versions? registry name with
  | none =>
    have bare := shelf_of_unknown known
    exact .absent (fun text _ => by rw [bare, get?_empty]) fun _ => bare
  | some versions =>
    have here := shelf_of_known known
    cases version with
    | some text =>
      cases found : versions.get? ⟨text⟩ with
      | none =>
        simp only [found, Option.map_none]
        exact .absent (fun other same => by cases same; simp [here, get?_mapValues, found]) nofun
      | some stored =>
        simp only [found, Option.map_some]
        exact .found rfl (by simp [here, get?_mapValues, found, receipt]) (by simp [receipt]) nofun
    | none =>
      cases last : versions.last? with
      | none =>
        simp only [last]
        exact .absent nofun fun _ => by rw [here, last?_eq_none.mp last]; rfl
      | some entry =>
        obtain ⟨id, stored⟩ := entry
        have last' : (s.shelf registry name).last? = some (id, some stored.content) := by
          rw [here, last?_mapValues, last]
          rfl
        simp only [last]
        exact .found rfl (sorted.last?_eq_some_iff.mp last').1 nofun fun _ => last'

instance : LawfulDirectory Memory where
  catalog := Memory.catalog
  Kept := Orderly
  orderly := Orderly.catalog
  listSchemas_law {_ request s _ _} orderly listed := by
    obtain ⟨rfl, rfl⟩ := Prod.mk.inj listed
    refine ⟨orderly.counted _, rfl, fun whole => .inr ⟨_, _, ?_, rfl⟩⟩
    simp [wanted, whole, Memory.catalog, summary, keys, Function.comp_def]
  listVersions_law {registry name _ s _ _} orderly listed := by
    obtain ⟨rfl, rfl⟩ := Prod.mk.inj listed
    refine ⟨orderly.counted _, rfl, ?_⟩
    cases known : s.versions? registry name with
    | none => exact .inl ⟨⟨_, rfl⟩, shelf_of_unknown known⟩
    | some versions =>
      refine .inr ⟨_, _, ?_, rfl⟩
      simp [Memory.catalog, shelf_of_known known, versionSummaries, keys, mapValues, Function.comp_def]
  describe_law {registry name version s _ _} orderly described := by
    obtain ⟨rfl, rfl⟩ := Prod.mk.inj described
    exact ⟨orderly.counted _, rfl, s.describe_describes orderly registry name version⟩
  create_law _ orderly created := by
    obtain ⟨rfl, rfl⟩ := Prod.mk.inj created
    exact create_cases orderly
  update_law _ orderly updated := by
    obtain ⟨rfl, rfl⟩ := Prod.mk.inj updated
    exact update_cases orderly

/-- The states that a directory gets into from an empty one, whatever versions are put into it directly. -/
inductive Reached : Memory → Prop where
  | empty (pageSize : Nat) : Reached (empty pageSize)
  | insertVersion {s : Memory} (now : Instant) (registry name version content : String) : Reached s →
    Reached (s.insertVersion now registry name version content)
  | create {s : Memory} (now : Instant) (request : PutRequest) : Reached s →
    Reached (s.create now request).2
  | update {s : Memory} (now : Instant) (request : PutRequest) : Reached s →
    Reached (s.update now request).2

theorem orderly_empty (pageSize : Nat) : (empty pageSize).Orderly where
  names _ := sorted_empty
  versions _ _ _ present := by cases present

theorem Reached.orderly {s : Memory} (reached : s.Reached) : s.Orderly := by
  induction reached with
  | empty pageSize => exact orderly_empty pageSize
  | insertVersion now registry name version content _ ih =>
    exact ih.putVersions (sorted_insert (ih.sorted registry name) _ _) (insert_ne_empty _ _ _)
  | create now request _ ih => exact (create_cases ih).1
  | update now request _ ih => exact (update_cases ih).1

end Schemata.Memory
