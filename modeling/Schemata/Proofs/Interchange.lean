import Schemata.Proofs.Directory.Filed

/-! A directory in memory and a directory of files stand in for each other: from empty ones, a run of requests gets
the same replies from both, times left aside. Both keep a ledger, and the ledgers are the same at the start. -/
namespace Schemata

open Table FileTree

theorem Memory.open_empty (pageSize : Nat) : (Memory.empty pageSize).Open := ⟨orderly_empty pageSize, rfl⟩

/-- A root that is there and has nothing in it. -/
structure Folders.Fresh (s : Folders) : Prop where
  root : s.tree.folder? s.root = some Table.empty
  storable : ∀ name ∈ s.root, isStorable name = true

namespace Folders.Fresh

variable {s : Folders} (fresh : s.Fresh)
include fresh

theorem find?_below {path : FilePath} (proper : path ≠ []) : s.tree.find? (s.root ++ path) = none := by
  rw [find?_append, folder?_eq_some_iff.mp fresh.root]
  exact find?_emptyFolder proper

theorem schemaFolder? (registry name : String) : s.schemaFolder? registry name = none := by
  rw [Folders.schemaFolder?, folder?, fresh.find?_below (by simp)]

theorem orderly : s.Orderly := by
  intro path entries there
  by_cases top : path = []
  · subst top
    rw [List.append_nil, fresh.root, Option.some.injEq] at there
    exact there ▸ sorted_empty
  · rw [folder?, fresh.find?_below top] at there
    cases there

theorem layered : s.Layered where
  root := ⟨_, fresh.root⟩
  storable := fresh.storable
  fileLevel path content found := by
    by_cases top : path = []
    · rw [top, List.append_nil, folder?_eq_some_iff.mp fresh.root] at found
      cases found
    · rw [fresh.find?_below top] at found
      cases found
  folderLevel path entries found := by
    by_cases top : path = []
    · rw [top]
      decide
    · rw [fresh.find?_below top] at found
      cases found

theorem filed : s.Filed where
  orderly := fresh.orderly
  layered := fresh.layered
  written registry name id content found := by
    rw [files, fresh.schemaFolder?] at found
    cases found

theorem schemaFolders (registry : String) : s.schemaFolders registry = Table.empty := by
  have above : s.tree.folder? (s.root ++ [registry]) = none := by
    rw [folder?, fresh.find?_below (by simp)]
  unfold Folders.schemaFolders wanted
  simp only [above]
  rfl

theorem ledger_eq : s.ledger = (Memory.empty s.pageSize).ledger := by
  have none (registry : String) : s.ledger.schemas registry = Table.empty :=
    congrArg (mapValues fun inner => (stored inner).mapValues editionOf) (fresh.schemaFolders registry)
  exact congrArg (Ledger.mk · s.pageSize) (funext none)

end Folders.Fresh

/-- Whatever the clocks say, and whatever the requests are as long as their names can be those of folders. -/
theorem Directory.interchangeable {s : Folders} (fresh : s.Fresh)
    (clock clock' : Nat → { now : Instant // now.Proper }) {requests : List DirectoryRequest}
    (accepted : ∀ request ∈ requests, Folders.Accepts request) :
    (replies clock (Memory.empty s.pageSize) requests).map DirectoryReply.undated =
      (replies clock' s requests).map DirectoryReply.undated := by
  have inMemory := @LedgerDirectory.replies_undated Memory _ _ requests clock _ (Memory.open_empty s.pageSize)
    fun _ _ => trivial
  have inFiles := @LedgerDirectory.replies_undated Folders _ _ requests clock' _ fresh.filed accepted
  rw [inMemory, inFiles]
  exact congrArg (Ledger.replies · requests) fresh.ledger_eq.symm

/-- An empty root in a folder with a file beside it. -/
def Folders.sampleFresh : Folders where
  tree := .folder ⟨[("notes", .file (.text "mine")), ("store", .emptyFolder)]⟩
  root := ["store"]
  pageSize := 1

/-- A schema is created twice, updated with the same content and with another, and asked about. -/
def DirectoryRequest.sampleRun : List DirectoryRequest :=
  [.create ⟨"Shop", "shop.Order", "first", .jsonSchemaDraft4, none⟩,
   .create ⟨"Shop", "shop.Order", "first", .jsonSchemaDraft4, none⟩,
   .update ⟨"Shop", "shop.Order", "first", .jsonSchemaDraft4, none⟩,
   .update ⟨"Shop", "shop.Order", "second", .jsonSchemaDraft4, some "changed"⟩,
   .listVersions "Shop" "shop.Order" none,
   .describe "Shop" "shop.Order" (some "3"),
   .listSchemas ⟨"Shop", some "shop.", none⟩,
   .listSchemas ⟨"Shop", none, some "1x"⟩]

/-- The replies to the sample run, without times. -/
def DirectoryReply.sampleReplies : List DirectoryReply :=
  [.receipt (.ok (Ledger.receipt "Shop" "shop.Order" ⟨"1"⟩ ⟨"first", none, .jsonSchemaDraft4⟩)),
   .receipt (.error (.rejected "schema shop.Order already exists")),
   .receipt (.error (.conflict "shop.Order")),
   .receipt (.ok (Ledger.receipt "Shop" "shop.Order" ⟨"2"⟩ ⟨"second", some "changed", .jsonSchemaDraft4⟩)),
   .versions (.ok ⟨[⟨"schema/Shop/shop.Order", "shop.Order", "1", .jsonSchemaDraft4⟩], some "1"⟩),
   .described (.error (.notFound "shop.Order" "3")),
   .schemas (.ok ⟨[⟨"schema/Shop/shop.Order", "shop.Order", .epoch, Table.empty, 2⟩], none⟩),
   .schemas (.error (.rejected "invalid next token \"1x\""))]

theorem Directory.interchangeable_sampleRun : Folders.sampleFresh.Fresh ∧
    (∀ request ∈ DirectoryRequest.sampleRun, Folders.Accepts request) ∧
    (replies (fun _ => ⟨⟨0, 0⟩, by decide⟩) (Memory.empty 1) DirectoryRequest.sampleRun).map DirectoryReply.undated =
      (replies (fun _ => ⟨⟨86400, 500⟩, by decide⟩) Folders.sampleFresh DirectoryRequest.sampleRun).map
        DirectoryReply.undated ∧
    (replies (fun _ => ⟨⟨86400, 500⟩, by decide⟩) Folders.sampleFresh DirectoryRequest.sampleRun).map
      DirectoryReply.undated = DirectoryReply.sampleReplies := by
  have fresh : Folders.sampleFresh.Fresh := ⟨rfl, by decide⟩
  have accepted : ∀ request ∈ DirectoryRequest.sampleRun, Folders.Accepts request := by decide
  have same := interchangeable fresh (fun _ => ⟨⟨0, 0⟩, by decide⟩) (fun _ => ⟨⟨86400, 500⟩, by decide⟩) accepted
  have inMemory : (replies (fun _ => ⟨⟨0, 0⟩, by decide⟩) (Memory.empty 1) DirectoryRequest.sampleRun).map
      DirectoryReply.undated = DirectoryReply.sampleReplies := by decide +kernel
  exact ⟨fresh, accepted, same, same.symm.trans inMemory⟩

end Schemata
