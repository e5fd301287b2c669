import Schemata.Proofs.Directory.Store
import Schemata.Proofs.Registry.Refusal
import Schemata.Proofs.Registry.Whole

/-! Paging is not seen. Directories that are the same apart from the sizes of their pages are read and written
alike, and whatever a registry is made to do gives the same results on both. -/
namespace Schemata

namespace Memory

/-- The directory apart from how many items fit on its pages, and from the counts of its calls. -/
def unpaged (s : Memory) : Memory := { s with pageSize := 0, calls := ⟨0, 0, 0, 0, 0⟩ }

/-- Whatever is decided, the same comes of it, whichever sizes of pages and counts there are. -/
theorem perform_unpaged (now : Instant) (request : PutRequest) (s : Memory) (pageSize : Nat) (calls calls' : Calls)
    (decision : Except DirectoryError VersionId) :
    (perform now request { s with pageSize, calls } decision).1 =
        (perform now request { s with calls := calls' } decision).1 ∧
      (perform now request { s with pageSize, calls } decision).2.unpaged =
        (perform now request { s with calls := calls' } decision).2.unpaged := by
  cases decision <;> exact ⟨rfl, rfl⟩

theorem create_unpaged (now : Instant) (request : PutRequest) (s : Memory) :
    (create now request s.unpaged).1 = (create now request s).1 ∧
      (create now request s.unpaged).2.unpaged = (create now request s).2.unpaged := by
  obtain ⟨calls, made⟩ := create_eq now request s.unpaged
  obtain ⟨calls', made'⟩ := create_eq now request s
  rw [made, made']
  exact perform_unpaged now request s 0 calls calls' _

theorem update_unpaged (now : Instant) (request : PutRequest) (s : Memory) :
    (update now request s.unpaged).1 = (update now request s).1 ∧
      (update now request s.unpaged).2.unpaged = (update now request s).2.unpaged := by
  obtain ⟨calls, made⟩ := update_eq now request s.unpaged
  obtain ⟨calls', made'⟩ := update_eq now request s
  rw [made, made']
  exact perform_unpaged now request s 0 calls calls' _

end Memory

namespace Folders

/-- The directory apart from how many items fit on its pages. -/
def unpaged (s : Folders) : Folders := { s with pageSize := 0 }

theorem write_unpaged (now : Instant) (request : PutRequest) (id : VersionId) (s : Folders) :
    (write now request id s.unpaged).1 = (write now request id s).1 ∧
      (write now request id s.unpaged).2.unpaged = (write now request id s).2.unpaged := by
  unfold write unpaged
  dsimp only
  split
  · exact ⟨rfl, rfl⟩
  · rcases s.tree.makeFolders (s.root ++ [request.registry, request.name]) with ⟨tree, _ | _⟩
    · exact ⟨rfl, rfl⟩
    · dsimp only
      split <;> exact ⟨rfl, rfl⟩

theorem perform_unpaged (now : Instant) (request : PutRequest) (s : Folders)
    (decision : Except DirectoryError VersionId) :
    (perform now request s.unpaged decision).1 = (perform now request s decision).1 ∧
      (perform now request s.unpaged decision).2.unpaged = (perform now request s decision).2.unpaged := by
  cases decision with
  | error e => exact ⟨rfl, rfl⟩
  | ok id => exact write_unpaged now request id s

theorem create_unpaged (now : Instant) (request : PutRequest) (s : Folders) :
    (create now request s.unpaged).1 = (create now request s).1 ∧
      (create now request s.unpaged).2.unpaged = (create now request s).2.unpaged := by
  rw [create_eq, create_eq]
  exact perform_unpaged now request s (s.creation request)

theorem update_unpaged (now : Instant) (request : PutRequest) (s : Folders) :
    (update now request s.unpaged).1 = (update now request s).1 ∧
      (update now request s.unpaged).2.unpaged = (update now request s).2.unpaged := by
  rw [update_eq, update_eq]
  exact perform_unpaged now request s (s.revision request)

end Folders

namespace Store

def unpaged : Store → Store
  | memory s => memory s.unpaged
  | folders s => folders s.unpaged

def contents : Store → Contents
  | memory s => {
    schemas := fun now registry start => .ok ((s.wanted ⟨registry, start, none⟩).map (Memory.summary now registry))
    versions := fun registry name => match s.versions? registry name with
      | none => .error (Memory.notFound name none)
      | some versions => .ok (Memory.versionSummaries registry name versions)
    describe := fun registry name version => (Memory.describe registry name version s).1 }
  | folders s => {
    schemas := fun now registry start => (Folders.checkComponent registry).bind fun _ =>
      Folders.collect (Folders.summary now registry) (s.wanted ⟨registry, start, none⟩)
    versions := fun registry name => (s.versions? registry name).bind fun
      | none => .error (Folders.notFound name none)
      | some versions => Folders.collect Folders.versionSummary versions.values
    describe := fun registry name version => (Folders.describe registry name version s).1 }

theorem contents_unpaged (s : Store) : s.unpaged.contents = s.contents := by cases s <;> rfl

theorem contents_eq {s t : Store} (same : s.unpaged = t.unpaged) : s.contents = t.contents := by
  rw [← contents_unpaged s, same, contents_unpaged]

/-- A directory shows its contents, in pages of its size. -/
theorem shown (s : Store) : s.contents.Shown s.pageSize
    fun t : Store => t.unpaged = s.unpaged ∧ t.pageSize = s.pageSize where
  listSchemas now request t same := by
    refine ⟨(Directory.listSchemas now request t).2, ?_, Prod.ext ?_ rfl⟩
    · cases t <;> exact same
    · rw [← contents_eq same.1, ← same.2]
      cases t with
      | memory t => rfl
      | folders t =>
        change (Folders.listSchemas now request t).1 = _
        unfold Folders.listSchemas
        dsimp only [contents, pageSize]
        cases Folders.checkComponent request.registry with
        | error e => rfl
        | ok _ =>
          have same : t.wanted ⟨request.registry, request.start, none⟩ = t.wanted request := rfl
          rw [same]
          cases Folders.collect (Folders.summary now request.registry) (t.wanted request) <;> rfl
  listVersions registry name token t same := by
    refine ⟨(Directory.listVersions registry name token t).2, ?_, Prod.ext ?_ rfl⟩
    · cases t <;> exact same
    · rw [← contents_eq same.1, ← same.2]
      cases t with
      | memory t =>
        change (Memory.listVersions registry name token t).1 = _
        unfold Memory.listVersions
        dsimp only [contents, pageSize]
        cases t.versions? registry name <;> rfl
      | folders t =>
        change (Folders.listVersions registry name token t).1 = _
        unfold Folders.listVersions
        dsimp only [contents, pageSize]
        cases t.versions? registry name with
        | error e => rfl
        | ok found =>
          cases found with
          | none => rfl
          | some versions =>
            dsimp only [Except.bind]
            cases Folders.collect Folders.versionSummary versions.values <;> rfl
  describe registry name version t same := by
    refine ⟨(Directory.describe registry name version t).2, ?_, Prod.ext ?_ rfl⟩
    · cases t <;> exact same
    · rw [← contents_eq same.1]
      cases t <;> rfl

/-- Whether a directory in memory has few schemas and few versions of each. -/
def few : Store → Bool
  | memory s => s.registries.values.all fun schemas => decide (schemas.size < 18446744073709551616) &&
    schemas.values.all fun versions => decide (versions.size < 18446744073709551616)
  | folders _ => false

theorem bounded_of_few {s : Store} (few : s.few = true) : s.contents.Bounded := by
  cases s with
  | folders s => cases few
  | memory s =>
    simp only [Store.few, List.all_eq_true, Bool.and_eq_true, decide_eq_true_eq] at few
    have small (registry : String) : (s.registry registry).size < 18446744073709551616 ∧
        ∀ versions ∈ (s.registry registry).values, versions.size < 18446744073709551616 := by
      unfold Memory.registry
      cases found : s.registries.get? registry with
      | none => exact ⟨by decide, nofun⟩
      | some schemas => exact few schemas (List.mem_map.mpr ⟨_, Table.mem_of_get? found, rfl⟩)
    constructor
    · intro now registry start items listed
      cases listed
      rw [List.length_map]
      exact Nat.lt_of_le_of_lt (List.length_filter_le _ _) (small registry).1
    · intro registry name items listed
      dsimp only [contents] at listed
      split at listed
      · cases listed
      · rename_i versions found
        cases listed
        rw [Memory.versionSummaries, List.length_map]
        exact (small registry).2 versions (List.mem_map.mpr ⟨_, Table.mem_of_get? found, rfl⟩)

/-- A call that does not see how a directory pages. -/
def Blind (act : Store → Except DirectoryError α × Store) : Prop :=
  ∀ s : Store, (act s.unpaged).1 = (act s).1 ∧ (act s.unpaged).2.unpaged = (act s).2.unpaged

theorem Blind.alike {act : Store → Except DirectoryError α × Store} (blind : Blind act) {s s' t : Store}
    (same : s.unpaged = t.unpaged) {answer : Except DirectoryError α} (answered : act s = (answer, s')) :
    ∃ t', act t = (answer, t') ∧ s'.unpaged = t'.unpaged := by
  obtain ⟨answers, leaves⟩ := blind s
  rw [same, answered] at answers leaves
  exact ⟨(act t).2, Prod.ext ((blind t).1.symm.trans answers) rfl, leaves.symm.trans (blind t).2⟩

theorem blind_describe (registry name : String) (version : Option String) :
    Blind (Directory.describe registry name version) := fun s => by cases s <;> exact ⟨rfl, rfl⟩

theorem blind_create (now : Instant) (request : PutRequest) : Blind (Directory.create now request) := fun s => by
  cases s with
  | memory s =>
    obtain ⟨answers, leaves⟩ := s.create_unpaged now request
    exact ⟨answers, congrArg memory leaves⟩
  | folders s =>
    obtain ⟨answers, leaves⟩ := s.create_unpaged now request
    exact ⟨answers, congrArg folders leaves⟩

theorem blind_update (now : Instant) (request : PutRequest) : Blind (Directory.update now request) := fun s => by
  cases s with
  | memory s =>
    obtain ⟨answers, leaves⟩ := s.update_unpaged now request
    exact ⟨answers, congrArg memory leaves⟩
  | folders s =>
    obtain ⟨answers, leaves⟩ := s.update_unpaged now request
    exact ⟨answers, congrArg folders leaves⟩

end Store

namespace Registry

/-- A query, or a registration. -/
inductive Wish where
  | ask (query : Query)
  | register (now : Instant) (name : QualifiedName) (model : Model)

inductive Outcome where
  | answered (answer : Answer)
  | registered (answer : Except SchemaError Version)

section
variable {σ : Type} [Directory σ]

def fulfil (r : Registry) (s : σ) : Wish → Outcome × Registry × σ
  | .ask query => (.answered (r.ask s query).1, (r.ask s query).2)
  | .register now name model =>
    (.registered (r.register now name model s).1, (r.register now name model s).2)

/-- The outcomes of one wish after the other, and what is there in the end. -/
def fulfilAll (r : Registry) (s : σ) : List Wish → List Outcome × Registry × σ
  | [] => ([], r, s)
  | wish :: rest =>
    let first := r.fulfil s wish
    let later := first.2.1.fulfilAll first.2.2 rest
    (first.1 :: later.1, later.2)

end

/-- No listing has more items than there are tokens, from the first wish to the last. -/
def BoundedFor (r : Registry) (s : Store) : List Wish → Prop
  | [] => True
  | wish :: rest => s.contents.Bounded ∧ (r.fulfil s wish).2.1.BoundedFor (r.fulfil s wish).2.2 rest

/-- Two results that are the same apart from how the directories page. -/
structure Matches (a b : α × Registry × Store) : Prop where
  answer : a.1 = b.1
  registry : a.2.1 = b.2.1
  directory : a.2.2.unpaged = b.2.2.unpaged

theorem Matches.map {a b : α × Registry × Store} (same : Matches a b) (f : α → β) :
    Matches (f a.1, a.2) (f b.1, b.2) := ⟨congrArg f same.answer, same.registry, same.directory⟩

section
variable {r r' : Registry} {s s' t : Store} {now : Instant} {name : String} (same : s.unpaged = t.unpaged)
  (bounded : s.contents.Bounded)
include same bounded

theorem drainNames_alike {registry : String} {start : Option String} {answer : Except DirectoryError Names}
    (drained : drainNames now ⟨registry, start, none⟩ Table.empty s = (answer, s')) :
    ∃ t', drainNames now ⟨registry, start, none⟩ Table.empty t = (answer, t') ∧ s'.unpaged = t'.unpaged := by
  obtain ⟨s₁, ⟨still, -⟩, here⟩ := s.shown.drainNames bounded now start ⟨rfl, rfl⟩
  obtain ⟨t₁, ⟨still', -⟩, there⟩ := t.shown.drainNames (Store.contents_eq same ▸ bounded) now start ⟨rfl, rfl⟩
  rw [Store.contents_eq same] at here
  cases here.symm.trans drained
  exact ⟨t₁, there, still.trans (same.trans still'.symm)⟩

theorem readHistory_alike {registry : String} {answer : Except DirectoryError History}
    (read : readHistory registry name s = (answer, s')) :
    ∃ t', readHistory registry name t = (answer, t') ∧ s'.unpaged = t'.unpaged := by
  obtain ⟨s₁, ⟨still, -⟩, here⟩ := s.shown.readHistory bounded name ⟨rfl, rfl⟩
  obtain ⟨t₁, ⟨still', -⟩, there⟩ := t.shown.readHistory (Store.contents_eq same ▸ bounded) name ⟨rfl, rfl⟩
  rw [Store.contents_eq same] at here
  cases here.symm.trans read
  exact ⟨t₁, there, still.trans (same.trans still'.symm)⟩

theorem matches_load (r : Registry) (now : Instant) : Matches (r.load now s) (r.load now t) := by
  rcases drained : drainNames now ⟨r.name, r.start, none⟩ Table.empty s with ⟨_ | names, s'⟩ <;>
    obtain ⟨t', drained', same'⟩ := drainNames_alike same bounded drained <;>
    rw [load, load, drained, drained'] <;> exact ⟨rfl, rfl, same'⟩

theorem matches_history (r : Registry) (name : String) : Matches (r.history name s) (r.history name t) := by
  unfold history
  split
  · exact ⟨rfl, rfl, same⟩
  · split
    · rcases read : readHistory r.name name s with ⟨_ | h, s'⟩ <;>
        obtain ⟨t', read', same'⟩ := readHistory_alike same bounded read <;>
        rw [read'] <;> exact ⟨rfl, rfl, same'⟩
    · exact ⟨rfl, rfl, same⟩

theorem matches_ask (r : Registry) (query : Query) : Matches (r.ask s query) (r.ask t query) := by
  have document (name : String) (version : Option String) :
      Matches (r.document name version s) (r.document name version t) := by
    rw [document_eq, document_eq]
    exact (matches_history same bounded r name).map (·.bind _)
  cases query with
  | load now => exact (matches_load same bounded r now).map _
  | names => exact ⟨rfl, rfl, same⟩
  | history name => exact (matches_history same bounded r name).map _
  | document name version => exact (document name version).map _
  | model name version =>
    simp only [ask, model_eq]
    exact (document name version).map fun answer => Answer.model (answer.bind modelOf)
  | identity handle => exact ⟨rfl, rfl, same⟩

theorem ReadsFor.alike {answer : Except DirectoryError Unit} (reads : ReadsFor name r s answer r' s') :
    ∃ t', ReadsFor name r t answer r' t' ∧ s'.unpaged = t'.unpaged := by
  cases reads with
  | held cached => exact ⟨t, .held cached, same⟩
  | failed absent read =>
    obtain ⟨t', read', same'⟩ := readHistory_alike same bounded read
    exact ⟨t', .failed absent read', same'⟩
  | read absent read =>
    obtain ⟨t', read', same'⟩ := readHistory_alike same bounded read
    exact ⟨t', .read absent read', same'⟩

/-- Call by call, a registration takes the same course. -/
theorem Attempt.alike {model : Model} {found : Except RegistrationFault Version}
    (attempt : Attempt now name model r s found r' s') :
    ∃ t', Attempt now name model r t found r' t' ∧ s'.unpaged = t'.unpaged := by
  have describing {u u' v : Store} (same : u.unpaged = v.unpaged) {answer : Except DirectoryError Described}
      (described : Directory.describe r.name name none u = (answer, u')) :
      ∃ v', Directory.describe r.name name none v = (answer, v') ∧ u'.unpaged = v'.unpaged :=
    (Store.blind_describe r.name name none).alike same described
  -- The history is read after the schema has been described, which changes no listing.
  have reading {s₁ s₂ t₁ : Store} {d : Described} {answer : Except DirectoryError Unit} {r₁ : Registry}
      (described : Directory.describe r.name name none s = (.ok d, s₁)) (same₁ : s₁.unpaged = t₁.unpaged)
      (reads : ReadsFor name r s₁ answer r₁ s₂) :
      ∃ t₂, ReadsFor name r t₁ answer r₁ t₂ ∧ s₂.unpaged = t₂.unpaged := by
    obtain ⟨_, ⟨still, -⟩, answered⟩ := s.shown.describe r.name name none ⟨rfl, rfl⟩
    obtain ⟨-, rfl⟩ := Prod.mk.inj (answered.symm.trans described)
    exact reads.alike same₁ (Store.contents_eq still ▸ bounded)
  cases attempt with
  | undescribed described other =>
    obtain ⟨t₁, described', same₁⟩ := describing same described
    exact ⟨t₁, .undescribed described' other, same₁⟩
  | created described created =>
    obtain ⟨t₁, described', same₁⟩ := describing same described
    obtain ⟨t₂, created', same₂⟩ := (Store.blind_create _ _).alike same₁ created
    exact ⟨t₂, .created described' created', same₂⟩
  | uncreated described created =>
    obtain ⟨t₁, described', same₁⟩ := describing same described
    obtain ⟨t₂, created', same₂⟩ := (Store.blind_create _ _).alike same₁ created
    exact ⟨t₂, .uncreated described' created', same₂⟩
  | unread described reads =>
    obtain ⟨t₁, described', same₁⟩ := describing same described
    obtain ⟨t₂, reads', same₂⟩ := reading described same₁ reads
    exact ⟨t₂, .unread described' reads', same₂⟩
  | updated described reads updated =>
    obtain ⟨t₁, described', same₁⟩ := describing same described
    obtain ⟨t₂, reads', same₂⟩ := reading described same₁ reads
    obtain ⟨t₃, updated', same₃⟩ := (Store.blind_update _ _).alike same₂ updated
    exact ⟨t₃, .updated described' reads' updated', same₃⟩
  | refused described reads updated other =>
    obtain ⟨t₁, described', same₁⟩ := describing same described
    obtain ⟨t₂, reads', same₂⟩ := reading described same₁ reads
    obtain ⟨t₃, updated', same₃⟩ := (Store.blind_update _ _).alike same₂ updated
    exact ⟨t₃, .refused described' reads' updated' other, same₃⟩
  | unconfirmed described reads updated again =>
    obtain ⟨t₁, described', same₁⟩ := describing same described
    obtain ⟨t₂, reads', same₂⟩ := reading described same₁ reads
    obtain ⟨t₃, updated', same₃⟩ := (Store.blind_update _ _).alike same₂ updated
    obtain ⟨t₄, again', same₄⟩ := describing same₃ again
    exact ⟨t₄, .unconfirmed described' reads' updated' again', same₄⟩
  | unchanged described reads updated again =>
    obtain ⟨t₁, described', same₁⟩ := describing same described
    obtain ⟨t₂, reads', same₂⟩ := reading described same₁ reads
    obtain ⟨t₃, updated', same₃⟩ := (Store.blind_update _ _).alike same₂ updated
    obtain ⟨t₄, again', same₄⟩ := describing same₃ again
    exact ⟨t₄, .unchanged described' reads' updated' again', same₄⟩

theorem matches_register (r : Registry) (now : Instant) (name : QualifiedName) (model : Model) :
    Matches (r.register now name model s) (r.register now name model t) := by
  obtain ⟨found, r', s', attempt⟩ := exists_attempt now name.text model r s
  obtain ⟨t', attempt', same'⟩ := attempt.alike same bounded
  rw [attempt.register_eq, attempt'.register_eq]
  cases found <;> exact ⟨rfl, rfl, same'⟩

theorem matches_fulfil (r : Registry) (wish : Wish) : Matches (r.fulfil s wish) (r.fulfil t wish) := by
  cases wish with
  | ask query => exact (matches_ask same bounded r query).map _
  | register now name model => exact (matches_register same bounded r now name model).map _

end

theorem matches_fulfilAll {r : Registry} {s t : Store} (same : s.unpaged = t.unpaged) {wishes : List Wish}
    (bounded : r.BoundedFor s wishes) : Matches (r.fulfilAll s wishes) (r.fulfilAll t wishes) := by
  induction wishes generalizing r s t with
  | nil => exact ⟨rfl, rfl, same⟩
  | cons wish rest ih =>
    obtain ⟨now, later⟩ := bounded
    obtain ⟨answer, registry, directory⟩ := matches_fulfil same now r wish
    obtain ⟨answers, registry', directory'⟩ := ih directory later
    unfold fulfilAll
    dsimp only
    rw [← registry, ← answer]
    exact ⟨congrArg (List.cons _) answers, registry', directory'⟩

/-- A listing comes out whole, whatever the size of the pages is. Any token is rejected or asks for a part of the
listing that fits on a page, without a wrong turn of the arithmetic, and what it leads to ends. So registries that are
made to do the same come to the same results on directories that only differ in how they page. -/
theorem paging_unseen {α : Type} (items : List α) (few : items.length < 18446744073709551616) (size : Nat)
    (r : Registry) {s t : Store} (same : s.unpaged = t.unpaged) {wishes : List Wish}
    (bounded : r.BoundedFor s wishes) :
    (∃ pages, (∀ others, Page.Drains size (fun _ => items) none others ↔ others = pages) ∧
      Page.gathered pages = items ∧ pages.length = max 1 (items.length ⌈/⌉ max 1 size)) ∧
    (∀ token, (∃ e, Page.slice items token size = .error e) ∨
      ∃ start page, Page.start? token = some start ∧ Page.slice items token size = .ok page ∧
        page.items = (items.drop start).take (max 1 size) ∧ ∀ next, page.next = some next →
          ∃ later, Page.start? (some next) = some later ∧ start < later ∧
            ∃ pages, Page.Drains size (fun _ => items) (some next) pages) ∧
    (∀ token (word : UInt64), Page.sliceWords items token word = Page.slice items token word.toNat) ∧
    Matches (r.fulfilAll s wishes) (r.fulfilAll t wishes) := by
  obtain ⟨pages, drains, whole, count⟩ := Page.drains_whole few size
  have only (others : List (Page α)) : Page.Drains size (fun _ => items) none others ↔ others = pages :=
    ⟨drains.unique, fun same => same ▸ drains⟩
  exact ⟨⟨pages, only, whole, count⟩, Page.slice_steady few size, Page.sliceWords_eq few,
    matches_fulfilAll same bounded⟩

/-- Two schemas, one of which has two versions, in pages of this size. -/
def samplePaged (pageSize : Nat) : Store :=
  let put (name version content : String) (m : Memory) := m.insertVersion ⟨0, 0⟩ "Shop" name version content
  .memory <| put "shop.Cart" "1" "first" <| put "shop.Order" "1" "second" <| put "shop.Order" "2" "third" <|
    Memory.empty pageSize

/-- All is listed, a model is registered as a further version of a schema, and all is listed again. -/
def sampleWishes : List Wish :=
  [.ask (.load ⟨0, 0⟩), .register ⟨0, 0⟩ ⟨"shop", "Order"⟩ (.named "Order"), .ask (.load ⟨0, 0⟩),
    .ask (.document "shop.Cart" none)]

theorem samplePaged_unseen : (samplePaged 1).unpaged = (samplePaged 2).unpaged ∧
    (new "Shop" none).BoundedFor (samplePaged 1) sampleWishes ∧
    Matches ((new "Shop" none).fulfilAll (samplePaged 1) sampleWishes)
      ((new "Shop" none).fulfilAll (samplePaged 2) sampleWishes) ∧
    ((new "Shop" none).fulfilAll (samplePaged 2) sampleWishes).2.1.models.values.map (·.id.text) = ["3"] ∧
    ∃ pages, Page.Drains 2 (fun _ => ["a", "b", "c"]) none pages ∧ Page.gathered pages = ["a", "b", "c"] ∧
      pages.length = 2 := by
  have equal : (samplePaged 1).unpaged = (samplePaged 2).unpaged := rfl
  have bounded : (new "Shop" none).BoundedFor (samplePaged 1) sampleWishes :=
    ⟨Store.bounded_of_few (by decide +kernel), Store.bounded_of_few (by decide +kernel),
      Store.bounded_of_few (by decide +kernel), Store.bounded_of_few (by decide +kernel), trivial⟩
  obtain ⟨⟨pages, only, whole, count⟩, -, -, same⟩ :=
    paging_unseen ["a", "b", "c"] (by decide) 2 (new "Shop" none) equal bounded
  refine ⟨equal, bounded, same, ?_, pages, (only pages).mpr rfl, whole, count.trans (by decide)⟩
  rw [← same.registry]
  decide +kernel

end Registry

end Schemata
