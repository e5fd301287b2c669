import Schemata.Proofs.Directory.Confinement
import Schemata.Proofs.Registry.Listing

/-! Loading while others write. A directory is shared with others, who may act before every page of a listing of its
schemas. No schema is ever taken away, so a registry that is loaded lists all that were there when the load began,
and none that is not there when it ends. -/
namespace Schemata

namespace Memory

variable {s : Memory} {registry name : String}

theorem mem_names : name ∈ s.catalog.names registry ↔ (s.versions? registry name).isSome = true :=
  Table.contains_iff_mem_keys.symm

/-- At most the versions of one schema are set. -/
structure Sets (s s' : Memory) : Prop where
  pageSize : s'.pageSize = s.pageSize
  registries : s'.registries = s.registries ∨
    ∃ registry name versions, s'.registries = (s.putVersions registry name versions).registries

theorem sets_perform (now : Instant) (request : PutRequest) (s : Memory) (calls : Calls)
    (decision : Except DirectoryError VersionId) : s.Sets (perform now request { s with calls } decision).2 := by
  cases decision with
  | error e => exact ⟨rfl, .inl rfl⟩
  | ok id => exact ⟨rfl, .inr ⟨_, _, _, rfl⟩⟩

theorem sets_create (now : Instant) (request : PutRequest) (s : Memory) : s.Sets (create now request s).2 := by
  obtain ⟨calls, made⟩ := create_eq now request s
  rw [made]
  exact s.sets_perform now request calls _

theorem sets_update (now : Instant) (request : PutRequest) (s : Memory) : s.Sets (update now request s).2 := by
  obtain ⟨calls, made⟩ := update_eq now request s
  rw [made]
  exact s.sets_perform now request calls _

theorem Sets.names {s' : Memory} (sets : s.Sets s') (registry : String) :
    s.catalog.names registry ⊆ s'.catalog.names registry := by
  intro name listed
  rw [mem_names] at listed ⊢
  obtain same | ⟨registry', name', versions, put⟩ := sets.registries
  · rw [versions?, Memory.registry, same]
    exact listed
  · have found := s.versions?_putVersions registry' name' versions registry name
    rw [versions?, Memory.registry, ← put] at found
    rw [versions?, Memory.registry, found]
    split
    · rfl
    · exact listed

end Memory

namespace Folders

variable {s s' : Folders}

theorem Orderly.mem_names (orderly : s.Orderly) {registry name : String} :
    name ∈ s.catalog.names registry ↔ s.tree.look? (s.root ++ [registry, name]) = some none := by
  have listed : name ∈ s.catalog.names registry ↔ (s.schemaFolder? registry name).isSome = true := by
    rw [← orderly.get?_schemaFolders]
    exact Table.contains_iff_mem_keys.symm
  rw [listed, schemaFolder?, FileTree.folder?, FileTree.look?]
  rcases s.tree.find? (s.root ++ [registry, name]) with _ | _ | _ <;> simp

theorem Confined.names {registry' name' : String} (confined : s.Confined registry' name' s') (orderly : s.Orderly)
    (orderly' : s'.Orderly) (registry : String) : s.catalog.names registry ⊆ s'.catalog.names registry := by
  intro name listed
  rw [orderly.mem_names] at listed
  rw [orderly'.mem_names, confined.root]
  obtain ⟨n, text, seen⟩ := confined.seen
  rcases seen (s.root ++ [registry, name]) with same | ⟨-, missing, -⟩ | ⟨deeper, -⟩
  · exact same.trans listed
  · cases missing.symm.trans listed
  · have lengths := congrArg List.length deeper
    simp at lengths

end Folders

namespace Store

/-- All is held in order. -/
def Orderly : Store → Prop
  | memory s => s.Orderly
  | folders s => s.Orderly

/-- What others do to a directory: they make a request, or put a version straight into a directory in memory. -/
inductive Deed where
  | request (now : Instant) (request : DirectoryRequest)
  | insertVersion (now : Instant) (registry name version content : String)

def after : Store → Deed → Store
  | s, .request now request => (request.answer now s).2
  | memory s, .insertVersion now registry name version content =>
    memory (s.insertVersion now registry name version content)
  | folders s, .insertVersion .. => folders s

/-- A directory is still in order later, pages as before, and has all the schemas that it had. -/
structure Grows (s t : Store) : Prop where
  orderly : t.Orderly
  pageSize : t.pageSize = s.pageSize
  names : ∀ registry, (LawfulDirectory.catalog s).names registry ⊆ (LawfulDirectory.catalog t).names registry

theorem Grows.refl {s : Store} (orderly : s.Orderly) : s.Grows s := ⟨orderly, rfl, fun _ => List.Subset.refl _⟩

theorem Grows.trans {s t u : Store} (first : s.Grows t) (second : t.Grows u) : s.Grows u :=
  ⟨second.orderly, second.pageSize.trans first.pageSize,
    fun registry => List.Subset.trans (first.names registry) (second.names registry)⟩

theorem Orderly.listSchemas {s : Store} (orderly : s.Orderly) (now : Instant) (request : ListRequest) :
    (Directory.listSchemas now request s).2.Orderly := by
  cases s with
  | memory s => exact Memory.Orderly.counted orderly _
  | folders s => exact orderly

theorem grows_after {s : Store} (orderly : s.Orderly) (deed : Deed) : s.Grows (s.after deed) := by
  cases s with
  | memory s =>
    have kept : s.Orderly := orderly
    have grows {t : Memory} (orderly' : t.Orderly) (sets : s.Sets t) : Grows (memory s) (memory t) :=
      ⟨orderly', sets.pageSize, sets.names⟩
    cases deed with
    | insertVersion now registry name version content =>
      exact grows (kept.putVersions (Table.sorted_insert (kept.sorted registry name) _ _)
        (Memory.insert_ne_empty _ _ _)) ⟨rfl, .inr ⟨_, _, _, rfl⟩⟩
    | request now request =>
      cases request with
      | create request => exact grows (Memory.create_cases kept).1 (Memory.sets_create now request s)
      | update request => exact grows (Memory.update_cases kept).1 (Memory.sets_update now request s)
      | _ => exact grows (kept.counted _) ⟨rfl, .inl rfl⟩
  | folders s =>
    have kept : s.Orderly := orderly
    have grows {t : Folders} {registry name : String} (orderly' : t.Orderly) (confined : s.Confined registry name t) :
        Grows (folders s) (folders t) := ⟨orderly', confined.pageSize, confined.names kept orderly'⟩
    cases deed with
    | insertVersion => exact .refl orderly
    | request now request =>
      cases request with
      | create request => exact grows kept.create (Folders.confined_create now request s)
      | update request => exact grows kept.update (Folders.confined_update now request s)
      | _ => exact .refl orderly

theorem grows_afterAll {s : Store} (orderly : s.Orderly) (deeds : List Deed) : s.Grows (deeds.foldl after s) := by
  induction deeds generalizing s with
  | nil => exact .refl orderly
  | cons deed rest ih =>
    have first := grows_after orderly deed
    exact first.trans (ih first.orderly)

theorem Orderly.sorted_wanted {s : Store} (orderly : s.Orderly) (request : ListRequest) :
    (s.wanted request).Pairwise fun a b => Key.order a b = .lt := by
  refine List.Pairwise.filter _ ?_
  cases s with
  | memory s => exact List.pairwise_map.mpr (Memory.Orderly.names orderly request.registry)
  | folders s => exact List.pairwise_map.mpr (Folders.Orderly.sorted_schemaFolders orderly request.registry)

theorem Grows.wanted {s t : Store} (orderly : s.Orderly) (grows : s.Grows t) (request : ListRequest) :
    (s.wanted request).Sublist (t.wanted request) :=
  Page.sublist_of_sorted (orderly.sorted_wanted request) (grows.orderly.sorted_wanted request)
    (List.filter_subset _ (grows.names request.registry))

end Store

/-- A directory, and what others do to it before each of the next listings of its schemas. -/
structure Shared where
  behind : Store
  others : List (List Store.Deed)

namespace Shared

/-- The directory after what others do next. -/
def next (s : Shared) : Store := (s.others.headD []).foldl Store.after s.behind

def alone (act : Store → Except DirectoryError α × Store) (s : Shared) : Except DirectoryError α × Shared :=
  ((act s.behind).1, { s with behind := (act s.behind).2 })

theorem of_alone {act : Store → Except DirectoryError α × Store} {s s' : Shared} {answer : Except DirectoryError α}
    (h : alone act s = (answer, s')) : act s.behind = (answer, s'.behind) := by
  obtain ⟨rfl, rfl⟩ := Prod.mk.inj h
  rfl

def listSchemas (now : Instant) (request : ListRequest) (s : Shared) :
    Except DirectoryError (Page SchemaSummary) × Shared :=
  ((Directory.listSchemas now request s.next).1, ⟨(Directory.listSchemas now request s.next).2, s.others.tail⟩)

theorem of_listSchemas {now : Instant} {request : ListRequest} {s s' : Shared}
    {answer : Except DirectoryError (Page SchemaSummary)} (h : listSchemas now request s = (answer, s')) :
    Directory.listSchemas now request s.next = (answer, s'.behind) := by
  obtain ⟨rfl, rfl⟩ := Prod.mk.inj h
  rfl

instance : Directory Shared where
  listSchemas := listSchemas
  listVersions registry name token := alone (Directory.listVersions registry name token)
  describe registry name version := alone (Directory.describe registry name version)
  create now request := alone (Directory.create now request)
  update now request := alone (Directory.update now request)
  -- However much others add, the tokens run out.
  schemasLeft request _ := Page.remaining 18446744073709551616 request.token
  versionsLeft registry name token s := Directory.versionsLeft registry name token s.behind
  schemasLeft_lt listed more :=
    Page.remaining_tokens_lt (Store.listSchemas_wanted (of_listSchemas listed)).2.2 more
  versionsLeft_lt listed more := Directory.versionsLeft_lt (of_alone listed) more
  versionsLeft_describe := Directory.versionsLeft_describe

/-- The names that are shown are those after what others do, and they are never fewer the next time. -/
theorem shows_next (size : Nat) (now : Instant) (request : ListRequest) : Registry.Shows now request size
    (fun s : Shared => s.behind.Orderly ∧ s.behind.pageSize = size)
    (fun s => s.next.wanted request) (fun s => s.behind.wanted request) where
  call {token s s' _} holds listed := by
    have answered := of_listSchemas listed
    obtain ⟨still, same, sliced⟩ := Store.listSchemas_wanted answered
    have first := Store.grows_afterAll holds.1 (s.others.headD [])
    have orderly' : s'.behind.Orderly := by
      have kept := first.orderly.listSchemas now { request with token }
      rw [← next, answered] at kept
      exact kept
    have read : s'.behind.wanted request = s.next.wanted request := by rw [Store.wanted, still, Store.wanted]
    have later := Store.grows_afterAll orderly' (s'.others.headD [])
    have size' : s.next.pageSize = size := first.pageSize.trans holds.2
    refine ⟨⟨orderly', same.trans size'⟩, ?_, ?_, read⟩
    · rw [← size']
      exact sliced
    · rw [← read]
      exact later.wanted orderly' request

end Shared

namespace Registry

/-- Whatever a listing in a fixed order grows by while its tokens are followed, all comes out that was there at first,
and only what is there at last. So a load on a shared directory lists every wanted schema that was there when it
began, and but for those of models only schemas that are there when it ends. -/
theorem load_misses_nothing {α : Type} {order : α → α → Prop} [Std.Asymm order] {lists : Nat → List α}
    (sorted : ∀ k, (lists k).Pairwise order) (grows : ∀ k, lists k ⊆ lists (k + 1)) {size : Nat}
    {pages : List (Page α)} (drains : Page.Drains size lists none pages) {r r' : Registry} {s s' : Shared}
    (orderly : s.behind.Orderly) {now : Instant} (loaded : r.load now s = (.ok (), r', s')) :
    (lists 0 ⊆ Page.gathered pages ∧ Page.gathered pages ⊆ lists (pages.length - 1)) ∧
    (∀ name ∈ s.behind.wanted ⟨r.name, r.start, none⟩, name ∈ r'.schemaNames) ∧
    ∀ name ∈ r'.schemaNames,
      name ∈ s'.behind.wanted ⟨r.name, r.start, none⟩ ∨ ∃ v ∈ r.models.values, v.name = name := by
  have shows := Shared.shows_next s.behind.pageSize now ⟨r.name, r.start, none⟩
  obtain ⟨-, -, names, all, only, listed⟩ := shows.load ⟨orderly, rfl⟩ loaded
  have began := (Store.grows_afterAll orderly (s.others.headD [])).wanted orderly ⟨r.name, r.start, none⟩
  refine ⟨drains.growing sorted grows, fun name wanted => (listed name).mpr (.inl (all (began.subset wanted))),
    fun name among => ((listed name).mp among).imp (fun found => only found) id⟩

/-- Two schemas, one on each page, in a directory in which others create a third one before the second page. -/
def sampleBusy : Shared where
  behind := .memory (((Memory.empty 1).insertVersion ⟨0, 0⟩ "Shop" "shop.Cart" "1" "first").insertVersion ⟨0, 0⟩
    "Shop" "shop.Order" "1" "second")
  others := [[], [.request ⟨0, 0⟩ (.create ⟨"Shop", "shop.Apple", "third", .jsonSchemaDraft4, none⟩)]]

/-- The listing of the wanted names at one page after the other. -/
def sampleBusyNames : Nat → List String
  | 0 => ["shop.Cart", "shop.Order"]
  | _ => ["shop.Apple", "shop.Cart", "shop.Order"]

/-- One schema comes twice, since the new one is before it. -/
def sampleBusyPages : List (Page String) :=
  [⟨["shop.Cart"], some "1"⟩, ⟨["shop.Cart"], some "2"⟩, ⟨["shop.Order"], none⟩]

theorem sampleBusy_misses_nothing : ∃ r' s', (new "Shop" none).load ⟨0, 0⟩ sampleBusy = (.ok (), r', s') ∧
    sampleBusyNames 0 ⊆ Page.gathered sampleBusyPages ∧
    (∀ name ∈ sampleBusy.behind.wanted ⟨"Shop", none, none⟩, name ∈ r'.schemaNames) ∧
    r'.schemaNames = ["shop.Cart", "shop.Order"] ∧
    s'.behind.wanted ⟨"Shop", none, none⟩ = ["shop.Apple", "shop.Cart", "shop.Order"] := by
  have drains : Page.Drains 1 sampleBusyNames none sampleBusyPages :=
    .more (by decide +kernel) rfl (.more (by decide +kernel) rfl (.last (by decide +kernel) rfl))
  have orderly : sampleBusy.behind.Orderly :=
    (((Memory.Reached.empty 1).insertVersion _ _ _ _ _).insertVersion _ _ _ _ _).orderly
  have succeeds : ((new "Shop" none).load ⟨0, 0⟩ sampleBusy).1.toOption = some () := by decide +kernel
  have names : ((new "Shop" none).load ⟨0, 0⟩ sampleBusy).2.1.schemaNames = ["shop.Cart", "shop.Order"] := by
    decide +kernel
  have there : ((new "Shop" none).load ⟨0, 0⟩ sampleBusy).2.2.behind.wanted ⟨"Shop", none, none⟩ =
      ["shop.Apple", "shop.Cart", "shop.Order"] := by decide +kernel
  rcases loaded : (new "Shop" none).load ⟨0, 0⟩ sampleBusy with ⟨_ | _, r', s'⟩ <;> rw [loaded] at succeeds names there
  · cases succeeds
  · have first : (sampleBusyNames 0).Pairwise fun a b => Key.order a b = .lt := by decide +kernel
    have others : (sampleBusyNames 1).Pairwise fun a b => Key.order a b = .lt := by decide +kernel
    have sorted : ∀ k, (sampleBusyNames k).Pairwise fun a b => Key.order a b = .lt
      | 0 => first
      | _ + 1 => others
    have grows : ∀ k, sampleBusyNames k ⊆ sampleBusyNames (k + 1)
      | 0 => (by decide +kernel : sampleBusyNames 0 ⊆ sampleBusyNames 1)
      | _ + 1 => List.Subset.refl _
    obtain ⟨⟨all, -⟩, began, -⟩ := load_misses_nothing sorted grows drains orderly loaded
    exact ⟨r', s', rfl, all, began, names, there⟩

end Registry

end Schemata
