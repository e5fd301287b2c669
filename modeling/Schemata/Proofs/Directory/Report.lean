import Schemata.Directory.Faults
import Schemata.Proofs.Directory.Store

/-! What directories report. Any call may fail at any time, so little is known of an answer; but a version that
is described is described as the directory behind has it, and a failed call leaves that as it was. -/
namespace Schemata

/-- What a directory answers as long as no call fails: its shelves, and a description of every version. -/
structure Report where
  shelf : Shelves
  describe : String → String → Option String → Except DirectoryError Described

namespace Report

/-- Descriptions agree with the shelves, and the latest version is described alike under its number. -/
structure Faithful (ρ : Report) : Prop where
  describes : ∀ registry name version,
    (ρ.shelf registry name).Describes name version (ρ.describe registry name version)
  latest : ∀ registry name d, ρ.describe registry name none = .ok d →
    ρ.describe registry name (some d.receipt.version) = .ok d

/-- What an answered write does to descriptions: a version that has become the latest one is described by its
receipt, and other schemas are described as before. -/
structure Puts (request : PutRequest) (before : Report) (answer : Except DirectoryError Receipt)
    (after : Report) : Prop where
  failed : ∀ e, answer = .error e → after = before
  latest : ∀ receipt, answer = .ok receipt →
    (after.shelf request.registry request.name).last? = some (⟨receipt.version⟩, some request.content) →
    after.describe request.registry request.name none = .ok ⟨request.content, receipt⟩
  others : ∀ registry name version, ¬ (registry = request.registry ∧ name = request.name) →
    after.describe registry name version = before.describe registry name version

theorem Puts.error (request : PutRequest) (ρ : Report) (e : DirectoryError) : ρ.Puts request (.error e) ρ :=
  ⟨fun _ _ => rfl, nofun, fun _ _ _ _ => rfl⟩

section
variable {ρ : Report} (faithful : ρ.Faithful) {registry name : String} {version : Option String} {d : Described}
include faithful

theorem Faithful.onShelf (described : ρ.describe registry name version = .ok d) :
    d.receipt.name = name ∧ (ρ.shelf registry name).get? ⟨d.receipt.version⟩ = some (some d.content) := by
  have describes := faithful.describes registry name version
  rw [described] at describes
  cases describes with
  | found named there _ _ => exact ⟨named, there⟩

theorem Faithful.greatest (described : ρ.describe registry name none = .ok d) :
    (ρ.shelf registry name).last? = some (⟨d.receipt.version⟩, some d.content) := by
  have describes := faithful.describes registry name none
  rw [described] at describes
  cases describes with
  | found _ _ _ last => exact last rfl

/-- Whatever is described under the number of the latest version is that version. -/
theorem Faithful.eq_latest {l : Described} (described : ρ.describe registry name version = .ok d)
    (latest : ρ.describe registry name none = .ok l) (same : d.receipt.version = l.receipt.version) : d = l := by
  cases version with
  | none =>
    rw [described] at latest
    exact Except.ok.inj latest
  | some text =>
    have describes := faithful.describes registry name (some text)
    rw [described] at describes
    have numbered : d.receipt.version = text := by
      cases describes with
      | found _ _ numbered _ => exact numbered text rfl
    have again := faithful.latest registry name l latest
    rw [← same, numbered, described] at again
    exact Except.ok.inj again

end

end Report

/-- Directories whose calls may fail. What they answer otherwise agrees with what they report. -/
class ReportingDirectory (σ : Type) [Directory σ] where
  report : σ → Report
  /-- What calls on an empty directory lead to. -/
  Kept : σ → Prop
  faithful {s : σ} : Kept s → (report s).Faithful
  listSchemas_keeps {now : Instant} {request : ListRequest} {s s' : σ}
    {answer : Except DirectoryError (Page SchemaSummary)} : Kept s →
    Directory.listSchemas now request s = (answer, s') → Kept s' ∧ report s' = report s
  listVersions_keeps {registry name : String} {token : Option String} {s s' : σ}
    {answer : Except DirectoryError (Page VersionSummary)} : Kept s →
    Directory.listVersions registry name token s = (answer, s') → Kept s' ∧ report s' = report s
  describe_reports {registry name : String} {version : Option String} {s s' : σ}
    {answer : Except DirectoryError Described} : Kept s →
    Directory.describe registry name version s = (answer, s') → Kept s' ∧ report s' = report s ∧
      ((∃ e, answer = .error e) ∨ answer = (report s).describe registry name version)
  create_reports {now : Instant} {request : PutRequest} {s s' : σ} {answer : Except DirectoryError Receipt} :
    now.Proper → Kept s → Directory.create now request s = (answer, s') → Kept s' ∧
      (report s).shelf.Created request answer (report s').shelf ∧ (report s).Puts request answer (report s')
  update_reports {now : Instant} {request : PutRequest} {s s' : σ} {answer : Except DirectoryError Receipt} :
    now.Proper → Kept s → Directory.update now request s = (answer, s') → Kept s' ∧
      (report s).shelf.Updated request answer (report s').shelf ∧ (report s).Puts request answer (report s')

namespace Memory

def report (s : Memory) : Report := ⟨s.shelf, fun registry name version => (describe registry name version s).1⟩

theorem Orderly.faithful {s : Memory} (orderly : s.Orderly) : s.report.Faithful where
  describes := s.describe_describes orderly
  latest registry name d described := by
    simp only [report, describe] at described ⊢
    cases known : s.versions? registry name with
    | none => simp [known] at described
    | some versions =>
      cases last : versions.last? with
      | none => simp [known, last] at described
      | some entry =>
        obtain ⟨id, stored⟩ := entry
        have found := ((orderly.versions registry name versions known).1.last?_eq_some_iff.mp last).1
        simp only [known, last, Except.ok.injEq] at described
        subst described
        simp [receipt, found]

theorem refusal_create (s : Memory) (now : Instant) (request : PutRequest) :
    (create now request s).2.refusal = s.refusal := by
  obtain ⟨calls, made⟩ := create_eq now request s
  rw [made, refusal_perform]

theorem refusal_update (s : Memory) (now : Instant) (request : PutRequest) :
    (update now request s).2.refusal = s.refusal := by
  obtain ⟨calls, made⟩ := update_eq now request s
  rw [made, refusal_perform]

theorem update_conflict {now : Instant} {request : PutRequest} {s : Memory} {versions : Versions} {id : VersionId}
    {stored : Stored} (accepts : s.refusal = none)
    (known : s.versions? request.registry request.name = some versions) (last : versions.last? = some (id, stored))
    (same : Checksum.ofText stored.content = Checksum.ofText request.content) :
    (update now request s).1 = .error (.conflict request.name) := by
  have conflict : s.revision request = .error (.conflict request.name) := by
    simp only [revision, accepts, known, last, if_pos same]
  obtain ⟨calls, made⟩ := update_eq now request s
  rw [made, conflict, perform]

section
variable {now : Instant} {request : PutRequest} {s : Memory}

/-- A version that was written and is the latest is described by its receipt. -/
theorem write_puts (orderly : s.Orderly) (id : VersionId) :
    s.report.Puts request (write now request (s.versions request.registry request.name) id s).1
      (write now request (s.versions request.registry request.name) id s).2.report where
  failed _ failed := by cases failed
  latest receipt answered last := by
    let stored : Stored := ⟨request.content, request.description, request.format, now⟩
    let after := (s.versions request.registry request.name).insert id stored
    have known : (write now request (s.versions request.registry request.name) id s).2.versions? request.registry
        request.name = some after := by
      simp only [write]
      rw [versions?_putVersions, if_pos ⟨rfl, rfl⟩]
    cases answered
    simp only [report, shelf_of_known known, Table.last?_mapValues, Option.map_eq_some_iff] at last
    obtain ⟨⟨id', stored'⟩, last, same⟩ := last
    obtain rfl : id' = id := congrArg Prod.fst same
    have sorted : after.Sorted := Table.sorted_insert (orderly.sorted _ _) _ _
    have found := (sorted.last?_eq_some_iff.mp last).1
    obtain rfl : stored = stored' := by
      rw [Table.get?_insert_same] at found
      exact Option.some.inj found
    simp only [report, describe, known, last]
    rfl
  others registry name version other := by
    simp only [report, describe, write]
    rw [versions?_putVersions, if_neg other]

theorem perform_puts (orderly : s.Orderly) (decision : Except DirectoryError VersionId) :
    s.report.Puts request (perform now request s decision).1 (perform now request s decision).2.report := by
  cases decision with
  | error e => exact .error _ _ _
  | ok id => exact write_puts orderly id

theorem create_puts (orderly : s.Orderly) :
    s.report.Puts request (create now request s).1 (create now request s).2.report := by
  obtain ⟨calls, made⟩ := create_eq now request s
  rw [made]
  exact perform_puts (orderly.counted calls) _

theorem update_puts (orderly : s.Orderly) :
    s.report.Puts request (update now request s).1 (update now request s).2.report := by
  obtain ⟨calls, made⟩ := update_eq now request s
  rw [made]
  exact perform_puts (orderly.counted calls) _

end

end Memory

namespace Folders

def report (s : Folders) : Report := ⟨s.shelf, fun registry name version => (describe registry name version s).1⟩

theorem Kept.faithful {s : Folders} (kept : s.Kept) : s.report.Faithful where
  describes := kept.describe_describes
  latest registry name d described := by
    change (describe registry name none s).1 = .ok d at described
    change (describe registry name (some d.receipt.version) s).1 = .ok d
    by_cases storable : Storable registry name
    · rw [describe_eq storable] at described ⊢
      dsimp only at described ⊢
      cases last : (s.files registry name).last? with
      | none => simp [last] at described
      | some entry =>
        obtain ⟨id, content⟩ := entry
        have found := ((s.sorted_files _ _).last?_eq_some_iff.mp last).1
        obtain ⟨d', readable, -, numbered⟩ := kept.read found
        simp only [last, Option.map_some, readable, Except.ok.injEq] at described
        subst described
        simp only [numbered, found, readable]
    · obtain ⟨e, failed⟩ := @describe_of_refused s registry name storable none
      rw [failed] at described
      cases described

theorem describe_of_files {s s' : Folders} {registry name : String}
    (same : s'.files registry name = s.files registry name) (version : Option String) :
    (describe registry name version s').1 = (describe registry name version s).1 := by
  by_cases storable : Storable registry name
  · rw [describe_eq storable, describe_eq storable, same]
  · unfold describe
    obtain ⟨reason, rejected⟩ := versions?_rejected storable
    rw [rejected, rejected]

theorem report_of_files {s s' : Folders} (same : s'.files = s.files) : s'.report = s.report := by
  have descriptions : (fun registry name version => (describe registry name version s').1) =
      fun registry name version => (describe registry name version s).1 := by
    funext registry name version
    exact describe_of_files (by rw [same]) version
  rw [report, report, shelf_of_files same, descriptions]

section
variable {now : Instant} {request : PutRequest} {s : Folders}

theorem write_puts {id : VersionId} {s' : Folders} {answer : Except DirectoryError Receipt} (kept : s.Kept)
    (proper : now.Proper) (storable : Storable request.registry request.name) (nonempty : id.text ≠ "")
    (wrote : write now request id s = (answer, s')) : s.report.Puts request answer s'.report := by
  obtain ⟨orderly, -, ⟨⟨e, rfl⟩, same⟩ | ⟨rfl, set⟩⟩ := write_cases kept.orderly nonempty wrote
  · rw [report_of_files same]
    exact .error _ _ _
  · refine ⟨nofun, ?_, fun registry name version other => ?_⟩
    · rintro _ ⟨rfl⟩ last
      have here := set request.registry request.name
      rw [if_pos ⟨rfl, rfl⟩] at here
      change (s'.shelf request.registry request.name).last? = _ at last
      rw [shelf, if_pos storable, Table.last?_mapValues, here, Option.map_eq_some_iff] at last
      obtain ⟨⟨id', content⟩, last, same⟩ := last
      obtain rfl : id' = id := congrArg Prod.fst same
      have sorted : (((s.files request.registry request.name).insert id' (fileOf now request id'))).Sorted :=
        Table.sorted_insert (s.sorted_files _ _) _ _
      have found := (sorted.last?_eq_some_iff.mp last).1
      rw [Table.get?_insert_same, Option.some.injEq] at found
      subst found
      rw [← here] at last
      change (describe request.registry request.name none s').1 = _
      rw [describe_eq storable]
      simp only [last, Option.map_some, read_fileOf proper]
    · exact describe_of_files ((set registry name).trans (if_neg other)) version

variable (kept : s.Kept) (proper : now.Proper)
include kept proper

theorem perform_puts {decision : Except DirectoryError VersionId}
    (given : ∀ id, decision = .ok id → Given request id) :
    s.report.Puts request (perform now request s decision).1 (perform now request s decision).2.report := by
  cases decision with
  | error e => exact .error _ _ _
  | ok id => exact write_puts kept proper (given id rfl).storable (given id rfl).nonempty rfl

theorem create_puts : s.report.Puts request (create now request s).1 (create now request s).2.report := by
  rw [create_eq]
  exact perform_puts kept proper fun _ => given_creation

theorem update_puts : s.report.Puts request (update now request s).1 (update now request s).2.report := by
  rw [update_eq]
  exact perform_puts kept proper fun _ => given_revision

end

end Folders

namespace Store

def report : Store → Report
  | memory s => s.report
  | folders s => s.report

/-- Writing is not switched off. -/
def Accepts : Store → Prop
  | memory s => s.refusal = none
  | folders _ => True

instance : ReportingDirectory Store where
  report := report
  Kept s := s.Kept ∧ s.Accepts
  faithful {s} kept := by
    cases s with
    | memory s => exact Memory.Orderly.faithful kept.1
    | folders s => exact Folders.Kept.faithful kept.1
  listSchemas_keeps {_ _ s _ _} kept listed := by
    obtain ⟨rfl, rfl⟩ := Prod.mk.inj listed
    cases s with
    | memory s => exact ⟨⟨Memory.Orderly.counted kept.1 _, kept.2⟩, rfl⟩
    | folders s => exact ⟨kept, rfl⟩
  listVersions_keeps {_ _ _ s _ _} kept listed := by
    obtain ⟨rfl, rfl⟩ := Prod.mk.inj listed
    cases s with
    | memory s => exact ⟨⟨Memory.Orderly.counted kept.1 _, kept.2⟩, rfl⟩
    | folders s => exact ⟨kept, rfl⟩
  describe_reports {_ _ _ s _ _} kept described := by
    obtain ⟨rfl, rfl⟩ := Prod.mk.inj described
    cases s with
    | memory s => exact ⟨⟨Memory.Orderly.counted kept.1 _, kept.2⟩, rfl, .inr rfl⟩
    | folders s => exact ⟨kept, rfl, .inr rfl⟩
  create_reports {now request s _ _} proper kept created := by
    obtain ⟨rfl, rfl⟩ := Prod.mk.inj created
    cases s with
    | memory s =>
      obtain ⟨kept', change⟩ := Memory.create_cases kept.1
      exact ⟨⟨kept', (s.refusal_create now request).trans kept.2⟩, change, Memory.create_puts kept.1⟩
    | folders s =>
      exact ⟨⟨Folders.Kept.create kept.1 proper, trivial⟩, Folders.create_cases proper kept.1.orderly,
        Folders.create_puts kept.1 proper⟩
  update_reports {now request s _ _} proper kept updated := by
    obtain ⟨rfl, rfl⟩ := Prod.mk.inj updated
    cases s with
    | memory s =>
      obtain ⟨kept', change⟩ := Memory.update_cases kept.1
      exact ⟨⟨kept', (s.refusal_update now request).trans kept.2⟩, change, Memory.update_puts kept.1⟩
    | folders s =>
      exact ⟨⟨Folders.Kept.update kept.1 proper, trivial⟩, Folders.update_cases proper kept.1.orderly,
        Folders.update_puts kept.1 proper⟩

theorem shelf_report (s : Store) : (ReportingDirectory.report s).shelf = s.shelf := by cases s <;> rfl

theorem describe_report (s : Store) (registry name : String) (version : Option String) :
    (ReportingDirectory.report s).describe registry name version =
      (Directory.describe registry name version s).1 := by cases s <;> rfl

/-- The content of the latest version is taken for a conflict, by every directory that accepts writes. -/
theorem update_conflict {now : Instant} {request : PutRequest} {s : Store} {d : Described} (accepts : s.Accepts)
    (described : (Directory.describe request.registry request.name none s).1 = .ok d)
    (same : Checksum.ofText d.content = Checksum.ofText request.content) :
    (Directory.update now request s).1 = .error (.conflict request.name) := by
  cases s with
  | memory s =>
    change (Memory.describe request.registry request.name none s).1 = .ok d at described
    unfold Memory.describe at described
    cases known : s.versions? request.registry request.name with
    | none => simp [known] at described
    | some versions =>
      cases last : versions.last? with
      | none => simp [known, last] at described
      | some entry =>
        obtain ⟨id, stored⟩ := entry
        simp only [known, last, Except.ok.injEq] at described
        subst described
        exact Memory.update_conflict accepts known last same
  | folders s =>
    change (Folders.describe request.registry request.name none s).1 = .ok d at described
    change (Folders.update now request s).1 = .error (.conflict request.name)
    by_cases storable : Folders.Storable request.registry request.name
    · rw [Folders.describe_eq storable] at described
      dsimp only at described
      cases last : (s.files request.registry request.name).last? with
      | none => simp [last] at described
      | some entry =>
        simp only [last, Option.map_some] at described
        have conflict : s.revision request = .error (.conflict request.name) := by
          simp only [Folders.revision, Folders.versions?_of_storable storable, Folders.last?_files, last, described,
            if_pos same]
        rw [Folders.update_eq, conflict, Folders.perform]
    · obtain ⟨e, failed⟩ := @Folders.describe_of_refused s _ _ storable none
      rw [failed] at described
      cases described

end Store

/-- A failure that does not claim that a content is there already. -/
def Fault.Honest (fault : Fault) : Prop := ∀ name, fault.error ≠ .conflict name

namespace Faulty

variable {σ : Type}

theorem strike_cases {call : DirectoryCall} {faults : List Fault} (honest : ∀ fault ∈ faults, fault.Honest) :
    (∀ fault ∈ (strike call faults).2, fault.Honest) ∧
      ∀ e, (strike call faults).1 = some e → ∀ name, e ≠ .conflict name := by
  induction faults with
  | nil => exact ⟨nofun, nofun⟩
  | cons fault rest ih =>
    obtain ⟨first, others⟩ := List.forall_mem_cons.mp honest
    obtain ⟨remain, struck⟩ := ih others
    unfold strike
    split
    · split
      · refine ⟨others, ?_⟩
        rintro e ⟨rfl⟩
        exact first
      · exact ⟨List.forall_mem_cons.mpr ⟨first, others⟩, nofun⟩
    · exact ⟨List.forall_mem_cons.mpr ⟨first, remain⟩, struck⟩

/-- A call fails and does not reach the directory behind, or is made there. -/
theorem attempt_cases {call : DirectoryCall} {act : σ → Except DirectoryError α × σ} {s s' : Faulty σ}
    {answer : Except DirectoryError α} (honest : ∀ fault ∈ s.faults, fault.Honest)
    (attempted : attempt call act s = (answer, s')) : (∀ fault ∈ s'.faults, fault.Honest) ∧
      ((∃ e, answer = .error e ∧ (∀ name, e ≠ .conflict name) ∧ s'.behind = s.behind) ∨
        act s.behind = (answer, s'.behind)) := by
  obtain ⟨remain, struck⟩ := @strike_cases call s.faults honest
  unfold attempt at attempted
  split at attempted
  · rename_i e faults hit
    rw [hit] at remain struck
    cases attempted
    exact ⟨remain, .inl ⟨e, rfl, struck e rfl, rfl⟩⟩
  · rename_i faults missed
    rw [missed] at remain
    cases attempted
    exact ⟨remain, .inr rfl⟩

variable [Directory σ] [ReportingDirectory σ]

instance : ReportingDirectory (Faulty σ) where
  report s := ReportingDirectory.report s.behind
  Kept s := ReportingDirectory.Kept s.behind ∧ ∀ fault ∈ s.faults, fault.Honest
  faithful kept := ReportingDirectory.faithful kept.1
  listSchemas_keeps kept listed := by
    obtain ⟨honest, ⟨e, -, -, same⟩ | reached⟩ := attempt_cases kept.2 listed
    · exact ⟨⟨same ▸ kept.1, honest⟩, congrArg _ same⟩
    · obtain ⟨kept', same⟩ := ReportingDirectory.listSchemas_keeps kept.1 reached
      exact ⟨⟨kept', honest⟩, same⟩
  listVersions_keeps kept listed := by
    obtain ⟨honest, ⟨e, -, -, same⟩ | reached⟩ := attempt_cases kept.2 listed
    · exact ⟨⟨same ▸ kept.1, honest⟩, congrArg _ same⟩
    · obtain ⟨kept', same⟩ := ReportingDirectory.listVersions_keeps kept.1 reached
      exact ⟨⟨kept', honest⟩, same⟩
  describe_reports kept described := by
    obtain ⟨honest, ⟨e, failed, -, same⟩ | reached⟩ := attempt_cases kept.2 described
    · exact ⟨⟨same ▸ kept.1, honest⟩, congrArg _ same, .inl ⟨e, failed⟩⟩
    · obtain ⟨kept', same, answers⟩ := ReportingDirectory.describe_reports kept.1 reached
      exact ⟨⟨kept', honest⟩, same, answers⟩
  create_reports proper kept created := by
    obtain ⟨honest, ⟨e, rfl, -, same⟩ | reached⟩ := attempt_cases kept.2 created
    · rw [same]
      exact ⟨⟨kept.1, honest⟩, .refused, .error _ _ _⟩
    · obtain ⟨kept', change, puts⟩ := ReportingDirectory.create_reports proper kept.1 reached
      exact ⟨⟨kept', honest⟩, change, puts⟩
  update_reports proper kept updated := by
    obtain ⟨honest, ⟨e, rfl, ordinary, same⟩ | reached⟩ := attempt_cases kept.2 updated
    · rw [same]
      exact ⟨⟨kept.1, honest⟩, .refused ordinary, .error _ _ _⟩
    · obtain ⟨kept', change, puts⟩ := ReportingDirectory.update_reports proper kept.1 reached
      exact ⟨⟨kept', honest⟩, change, puts⟩

end Faulty

end Schemata
