import Schemata.Proofs.Addressing
import Schemata.Proofs.Directory.Ledger
import Schemata.Proofs.Directory.Numbering
import Schemata.Proofs.Registry.Reading
import Mathlib.Data.List.Chain

/-! The versions of a schema are its successful writes, one after the other: the k-th of them is the version with
the number k, whatever else is asked of the directory between two writes. -/
namespace Schemata

open LawfulDirectory Table

/-- The content that an answered request has put under a schema. -/
def PutRequest.written? (registry name : String) (request : PutRequest) : Except DirectoryError Receipt → Option String
  | .ok _ => if registry = request.registry ∧ name = request.name then some request.content else none
  | .error _ => none

def DirectoryRequest.written? (registry name : String) : DirectoryRequest → DirectoryReply → Option String
  | .create request, .receipt answer | .update request, .receipt answer => request.written? registry name answer
  | _, _ => none

namespace Directory

/-- The directory after requests that are made one after the other, each at the clock's next reading. -/
def after [Directory σ] (clock : Nat → { now : Instant // now.Proper }) (s : σ) : List DirectoryRequest → σ
  | [] => s
  | request :: rest => after (fun n => clock (n + 1)) (request.answer (clock 0).val s).2 rest

/-- The contents that such requests have put under a schema, oldest first. -/
def written [Directory σ] (registry name : String) (clock : Nat → { now : Instant // now.Proper }) (s : σ)
    (requests : List DirectoryRequest) : List String :=
  (requests.zip (replies clock s requests)).filterMap fun (request, reply) => request.written? registry name reply

theorem written_cons [Directory σ] (registry name : String) (clock : Nat → { now : Instant // now.Proper }) (s : σ)
    (request : DirectoryRequest) (rest : List DirectoryRequest) :
    written registry name clock s (request :: rest) =
      (request.written? registry name (request.answer (clock 0).val s).1).toList ++
        written registry name (fun n => clock (n + 1)) (request.answer (clock 0).val s).2 rest := by
  simp only [written, replies, List.zip_cons_cons, List.filterMap_cons]
  split
  · rename_i none
    rw [none]
    rfl
  · rename_i some
    rw [some]
    rfl

theorem length_written_le [Directory σ] (registry name : String) (clock : Nat → { now : Instant // now.Proper })
    (s : σ) (requests : List DirectoryRequest) : (written registry name clock s requests).length ≤ requests.length := by
  apply Nat.le_trans (List.length_filterMap_le _ _)
  rw [List.length_zip]
  exact Nat.min_le_left _ _

end Directory

/-- The versions are numbered from 1 on and have these contents in their order, of which no two neighbours are the
same. -/
structure Shelf.Lists (shelf : Shelf) (contents : List String) : Prop where
  entries : shelf.entries = contents.mapIdx fun k content => (.ofNat (k + 1), some content)
  changes : contents.IsChain (· ≠ ·)

namespace Shelf.Lists

theorem empty : Shelf.Lists Table.empty [] := ⟨rfl, .nil⟩

variable {shelf : Shelf} {contents : List String} (lists : shelf.Lists contents)
include lists

theorem size_eq : shelf.size = contents.length := by
  rw [Table.size, lists.entries, List.length_mapIdx]

theorem keys_eq : shelf.keys = (List.range contents.length).map fun k => VersionId.ofNat (k + 1) := by
  rw [keys, lists.entries]
  exact List.ext_getElem (by simp) fun k _ _ => by simp

theorem numbered : shelf.Numbered := by
  rw [Shelf.Numbered, lists.size_eq]
  exact lists.keys_eq

theorem last?_eq : shelf.last? = contents.getLast?.map fun content => (.ofNat contents.length, some content) := by
  rw [last?, lists.entries, List.getLast?_mapIdx]
  cases last : contents.getLast? with
  | none => rfl
  | some content =>
    have some : contents ≠ [] := by
      rintro rfl
      cases last
    rw [Nat.sub_add_cancel (List.length_pos_iff.mpr some)]

theorem eq_nil_iff : shelf = Table.empty ↔ contents = [] := by
  rw [← last?_eq_none, lists.last?_eq, Option.map_eq_none_iff, List.getLast?_eq_none_iff]

theorem get?_iff (sorted : shelf.Sorted) {id : VersionId} {content : Option String} :
    shelf.get? id = some content ↔
      ∃ k text, contents[k]? = some text ∧ id = .ofNat (k + 1) ∧ content = some text := by
  rw [sorted.get?_eq_some_iff, lists.entries, List.mem_mapIdx]
  constructor
  · rintro ⟨k, inside, same⟩
    obtain ⟨rfl, rfl⟩ := Prod.mk.inj same
    exact ⟨k, _, List.getElem?_eq_getElem inside, rfl, rfl⟩
  · rintro ⟨k, text, at_k, rfl, rfl⟩
    obtain ⟨inside, rfl⟩ := List.getElem?_eq_some_iff.mp at_k
    exact ⟨k, inside, rfl⟩

/-- A content other than the last one is put under the next number. -/
theorem insert_next {content : String} (new : contents.getLast? ≠ some content) :
    Shelf.Lists (shelf.insert (.ofNat (contents.length + 1)) (some content)) (contents ++ [content]) where
  entries := by
    have next := lists.numbered.entries_insert_next (some content)
    rw [lists.size_eq] at next
    rw [next, lists.entries, List.mapIdx_append]
    simp
  changes := by
    refine List.isChain_append.mpr ⟨lists.changes, .singleton _, fun last greatest first single same => ?_⟩
    rw [List.head?_cons, Option.mem_some_iff] at single
    rw [Option.mem_def, same, ← single] at greatest
    exact new greatest

end Shelf.Lists

namespace Shelves

variable {request : PutRequest} {before after : Shelves} {answer : Except DirectoryError Receipt}
  {registry name : String} {contents : List String} (lists : (before registry name).Lists contents)
include lists

/-- What has been put under the next number of its schema, if it was not the last content there, is its last one;
other schemas have what they had. -/
theorem lists_put {id : VersionId} (receipt : Receipt)
    (next : registry = request.registry ∧ name = request.name →
      id = .ofNat (contents.length + 1) ∧ contents.getLast? ≠ some request.content) :
    (before.put request id registry name).Lists
      (contents ++ (request.written? registry name (.ok receipt)).toList) := by
  unfold put PutRequest.written?
  split
  · rename_i schema
    obtain ⟨rfl, new⟩ := next schema
    exact lists.insert_next new
  · rw [Option.toList_none, List.append_nil]
    exact lists

theorem Created.lists_after (created : before.Created request answer after) :
    (after registry name).Lists (contents ++ (request.written? registry name answer).toList) := by
  cases created with
  | refused =>
    rw [PutRequest.written?, Option.toList_none, List.append_nil]
    exact lists
  | added none _ _ =>
    refine lists_put lists _ ?_
    rintro ⟨rfl, rfl⟩
    obtain rfl := lists.eq_nil_iff.mp none
    exact ⟨VersionId.first_eq, nofun⟩

theorem Updated.lists_after (updated : before.Updated request answer after)
    (small : contents.length < 18446744073709551615) :
    (after registry name).Lists (contents ++ (request.written? registry name answer).toList) := by
  cases updated with
  | refused =>
    rw [PutRequest.written?, Option.toList_none, List.append_nil]
    exact lists
  | unchanged =>
    rw [PutRequest.written?, Option.toList_none, List.append_nil]
    exact lists
  | @added id text _ last differs _ _ =>
    refine lists_put lists _ ?_
    rintro ⟨rfl, rfl⟩
    rw [lists.last?_eq, Option.map_eq_some_iff] at last
    obtain ⟨content, greatest, same⟩ := last
    obtain ⟨rfl, rfl⟩ : VersionId.ofNat contents.length = id ∧ content = text := by simpa using same
    have countable : (VersionId.ofNat contents.length).Countable := ⟨by simp, by simp; omega⟩
    refine ⟨by rw [VersionId.next_of_countable countable, VersionId.number_ofNat], fun again => ?_⟩
    rw [greatest, Option.some.injEq] at again
    exact differs (by rw [again])

end Shelves

section
variable {σ : Type} [Directory σ] [LawfulDirectory σ] {registry name : String} {contents : List String}

/-- One request puts the content that it writes after those that are there. -/
theorem DirectoryRequest.answer_lists {request : DirectoryRequest} {now : Instant} {s : σ} (proper : now.Proper)
    (kept : Kept s) (lists : ((catalog s).shelf registry name).Lists contents)
    (small : contents.length < 18446744073709551615) :
    Kept (request.answer now s).2 ∧ ((catalog (request.answer now s).2).shelf registry name).Lists
      (contents ++ (request.written? registry name (request.answer now s).1).toList) := by
  -- What only reads keeps the catalog and has written nothing.
  have reads {s' : σ} {reply : DirectoryReply} (kept' : Kept s') (same : catalog s' = catalog s)
      (unwritten : request.written? registry name reply = none) : Kept s' ∧
        ((catalog s').shelf registry name).Lists (contents ++ (request.written? registry name reply).toList) := by
    rw [same, unwritten, Option.toList_none, List.append_nil]
    exact ⟨kept', lists⟩
  cases request with
  | listSchemas request =>
    obtain ⟨kept', same, -⟩ := @listSchemas_law σ _ _ now request s _ _ kept rfl
    exact reads kept' same rfl
  | listVersions registry' name' token =>
    obtain ⟨kept', same, -⟩ := @listVersions_law σ _ _ registry' name' token s _ _ kept rfl
    exact reads kept' same rfl
  | describe registry' name' version =>
    obtain ⟨kept', same, -⟩ := @describe_law σ _ _ registry' name' version s _ _ kept rfl
    exact reads kept' same rfl
  | create request =>
    obtain ⟨kept', created⟩ := @create_law σ _ _ now request s _ _ proper kept rfl
    exact ⟨kept', created.lists_after lists⟩
  | update request =>
    obtain ⟨kept', updated⟩ := @update_law σ _ _ now request s _ _ proper kept rfl
    exact ⟨kept', updated.lists_after lists small⟩

theorem Directory.after_lists {requests : List DirectoryRequest} (clock : Nat → { now : Instant // now.Proper })
    {s : σ} (kept : Kept s) (lists : ((catalog s).shelf registry name).Lists contents)
    (few : contents.length + (written registry name clock s requests).length < 18446744073709551615) :
    Kept (after clock s requests) ∧ ((catalog (after clock s requests)).shelf registry name).Lists
      (contents ++ written registry name clock s requests) := by
  -- By induction on the requests, for any contents that are there already.
  induction requests generalizing clock s contents with
  | nil =>
    rw [written, List.zip_nil_left, List.filterMap_nil, List.append_nil]
    exact ⟨kept, lists⟩
  | cons request rest ih =>
    obtain ⟨kept', lists'⟩ := request.answer_lists (clock 0).property kept lists (by omega)
    rw [written_cons, List.length_append] at few
    rw [written_cons, ← List.append_assoc]
    exact ih (fun n => clock (n + 1)) kept' lists' (by rw [List.length_append]; omega)

end

/-- Following the tokens of a listing of versions, from one of them on, leads to these items. -/
inductive Directory.Drains [Directory σ] (registry name : String) :
    Option String → σ → List VersionSummary → Prop where
  | last {token : Option String} {s s' : σ} {items : List VersionSummary} :
    listVersions registry name token s = (.ok ⟨items, none⟩, s') → Drains registry name token s items
  | more {token : Option String} {s s' : σ} {items rest : List VersionSummary} {next : String} :
    listVersions registry name token s = (.ok ⟨items, some next⟩, s') →
    Drains registry name (some next) s' rest → Drains registry name token s (items ++ rest)

theorem Directory.exists_drains {σ : Type} [Directory σ] [LawfulDirectory σ] {registry name : String} {s : σ}
    {c : Catalog} (kept : Kept s) (view : catalog s = c) (filled : c.shelf registry name ≠ Table.empty)
    (small : (c.shelf registry name).size < 18446744073709551616) {token : Option String} {start : Nat}
    (known : Page.start? token = some start) (inside : start ≤ (c.shelf registry name).size) :
    ∃ items, Drains registry name token s items ∧
      items.map (fun item => VersionId.mk item.version) = (c.shelf registry name).keys.drop start := by
  -- By induction on what is left from the token's start on.
  induction left : (c.shelf registry name).size - start using Nat.strongRecOn generalizing token start s with
  | ind n ih =>
    rcases listed : Directory.listVersions registry name token s with ⟨answer, s'⟩
    obtain ⟨kept', same, -⟩ := listVersions_law kept listed
    subst view
    obtain ⟨⟨items, next⟩, stop, rfl, within, keys, ends⟩ :=
      Registry.listVersions_page kept filled known inside listed
    rcases ends with ⟨rfl, stops⟩ | ⟨rfl, further⟩
    · refine ⟨items, .last listed, ?_⟩
      rw [keys, stops, Table.size, ← List.length_map, ← Table.keys, List.drop_length, List.append_nil]
    · have onward : Page.start? (some (Page.tokenOf stop)) = some stop := by
        rw [Page.start?_tokenOf, if_pos (by omega)]
      obtain ⟨rest, drained, others⟩ := ih _ (by omega) kept' same onward within rfl
      refine ⟨items ++ rest, .more listed drained, ?_⟩
      rw [List.map_append, others, keys]

namespace Store

/-- What a directory shows of a schema to which these contents have been written, one after the other. -/
structure Presents (s : Store) (registry name : String) (contents : List String) : Prop where
  ids : (s.shelf registry name).keys = (List.range contents.length).map fun k => VersionId.ofNat (k + 1)
  /-- A listing goes through all pages in the order of the numbers. -/
  listed : contents ≠ [] → ∃ items, Directory.Drains registry name none s items ∧
    items.map VersionSummary.version = (List.range contents.length).map fun k => (VersionId.ofNat (k + 1)).text
  content : ∀ version text, s.content registry name version = some text ↔
    ∃ k, contents[k]? = some text ∧ version = (VersionId.ofNat (k + 1)).text
  changes : contents.IsChain (· ≠ ·)
  latest : (Directory.describe registry name none s).1.toOption.map (fun d => (d.receipt.version, d.content)) =
    contents.getLast?.map fun content => ((VersionId.ofNat contents.length).text, content)
  /-- An update is a conflict exactly if it repeats the last content. -/
  conflict : ∀ now request, now.Proper → request.registry = registry → request.name = name →
    Checksum.CollisionFree (request.content :: contents) →
    ((∃ schema, (Directory.update now request s).1 = .error (.conflict schema)) ↔
      contents.getLast? = some request.content)

section
variable {s : Store} (kept : s.Kept) {registry name : String} {contents : List String}
  (lists : (s.shelf registry name).Lists contents)
include kept lists

theorem latest_of_lists :
    (Directory.describe registry name none s).1.toOption.map (fun d => (d.receipt.version, d.content)) =
      contents.getLast?.map fun content => ((VersionId.ofNat contents.length).text, content) := by
  rcases described : Directory.describe registry name none s with ⟨answer, s'⟩
  obtain ⟨-, -, describes⟩ := describe_law kept described
  rw [shelf_catalog] at describes
  cases describes with
  | absent _ gone =>
    rw [lists.eq_nil_iff.mp (gone rfl)]
    rfl
  | @found d _ _ _ last =>
    have greatest := last rfl
    rw [lists.last?_eq, Option.map_eq_some_iff] at greatest
    obtain ⟨content, greatest, same⟩ := greatest
    rw [Prod.mk.injEq, Option.some.injEq] at same
    rw [greatest, Option.map_some, same.1, same.2]
    rfl

theorem content_iff_of_lists (version text : String) : s.content registry name version = some text ↔
    ∃ k, contents[k]? = some text ∧ version = (VersionId.ofNat (k + 1)).text := by
  have sorted : (s.shelf registry name).Sorted := by
    rw [← shelf_catalog]
    exact (orderly (σ := Store) kept).sorted registry name
  rw [content_eq, Shelves.content, Option.join_eq_some_iff, lists.get?_iff sorted]
  constructor
  · rintro ⟨k, other, at_k, same, texts⟩
    cases texts
    exact ⟨k, at_k, congrArg VersionId.text same⟩
  · rintro ⟨k, at_k, rfl⟩
    exact ⟨k, text, at_k, rfl, rfl⟩

theorem conflict_iff_of_lists (accepts : contents ≠ [] → s.Accepts) {now : Instant} {request : PutRequest}
    (proper : now.Proper) (sameRegistry : request.registry = registry) (sameName : request.name = name)
    (collisionFree : Checksum.CollisionFree (request.content :: contents)) :
    (∃ schema, (Directory.update now request s).1 = .error (.conflict schema)) ↔
      contents.getLast? = some request.content := by
  subst sameRegistry sameName
  constructor
  · rintro ⟨schema, conflict⟩
    obtain ⟨-, updated⟩ := update_law proper kept (Prod.ext conflict rfl)
    rw [shelf_catalog] at updated
    generalize (LawfulDirectory.catalog (Directory.update now request s).2).shelf = after at updated
    cases updated with
    | refused other => exact absurd rfl (other schema)
    | @unchanged id text last same =>
      rw [lists.last?_eq, Option.map_eq_some_iff] at last
      obtain ⟨content, greatest, texts⟩ := last
      obtain rfl : content = text := by simpa using congrArg Prod.snd texts
      rw [greatest, collisionFree _ (List.mem_cons_of_mem _ (List.mem_of_getLast? greatest)) _ List.mem_cons_self same]
  · intro repeats
    have latest := latest_of_lists kept lists
    rw [repeats, Option.map_some, Option.map_eq_some_iff] at latest
    obtain ⟨d, described, same⟩ := latest
    have some : contents ≠ [] := by
      rintro rfl
      cases repeats
    refine ⟨_, update_conflict (accepts some) ?_ (congrArg Checksum.ofText (Prod.mk.inj same).2)⟩
    cases answer : (Directory.describe request.registry request.name none s).1 with
    | error e =>
      rw [answer] at described
      cases described
    | ok d' =>
      rw [answer] at described
      exact congrArg Except.ok (Option.some.inj described)

theorem presents_of_lists (few : contents.length < 18446744073709551616) (accepts : contents ≠ [] → s.Accepts) :
    s.Presents registry name contents where
  ids := lists.keys_eq
  listed some := by
    have view : (LawfulDirectory.catalog s).shelf = s.shelf := s.shelf_catalog
    rw [← view] at lists
    have start : Page.start? none = Option.some 0 := rfl
    obtain ⟨items, drained, all⟩ := Directory.exists_drains kept rfl (mt lists.eq_nil_iff.mp some)
      (by rw [lists.size_eq]; exact few) start (Nat.zero_le _)
    refine ⟨items, drained, ?_⟩
    rw [List.drop_zero, lists.keys_eq] at all
    have texts := congrArg (List.map VersionId.text) all
    rwa [List.map_map, List.map_map] at texts
  content := content_iff_of_lists kept lists
  changes := lists.changes
  latest := latest_of_lists kept lists
  conflict _ _ proper sameRegistry sameName collisionFree :=
    conflict_iff_of_lists kept lists accepts proper sameRegistry sameName collisionFree

end

theorem accepts_answer (s : Store) (now : Instant) (request : DirectoryRequest) :
    (request.answer now s).2.Accepts ↔ s.Accepts := by
  cases s with
  | folders s => cases request <;> exact Iff.rfl
  | memory s =>
    cases request with
    | listSchemas request => exact Iff.rfl
    | listVersions registry name token => exact Iff.rfl
    | describe registry name version => exact Iff.rfl
    | create request => exact iff_of_eq (congrArg (· = none) (s.refusal_create now request))
    | update request => exact iff_of_eq (congrArg (· = none) (s.refusal_update now request))

theorem accepts_of_written {s : Store} {now : Instant} {request : DirectoryRequest} {registry name content : String}
    (wrote : request.written? registry name (request.answer now s).1 = some content) : s.Accepts := by
  cases s with
  | folders s => trivial
  | memory s =>
    cases refusal : s.refusal with
    | none => exact refusal
    | some reason =>
      cases request with
      | listSchemas request => cases wrote
      | listVersions registry name token => cases wrote
      | describe registry name version => cases wrote
      | create request =>
        change request.written? registry name (Memory.create now request s).1 = some content at wrote
        simp [Memory.create, refusal, PutRequest.written?] at wrote
      | update request =>
        change request.written? registry name (Memory.update now request s).1 = some content at wrote
        simp [Memory.update, refusal, PutRequest.written?] at wrote

theorem accepts_after (requests : List DirectoryRequest) (clock : Nat → { now : Instant // now.Proper }) (s : Store) :
    (Directory.after clock s requests).Accepts ↔ s.Accepts := by
  induction requests generalizing clock s with
  | nil => exact Iff.rfl
  | cons request rest ih => exact (ih _ _).trans (s.accepts_answer _ request)

theorem accepts_of_written_ne_nil {requests : List DirectoryRequest} {clock : Nat → { now : Instant // now.Proper }}
    {s : Store} {registry name : String} (wrote : Directory.written registry name clock s requests ≠ []) :
    s.Accepts := by
  induction requests generalizing clock s with
  | nil => exact absurd rfl wrote
  | cons request rest ih =>
    rw [Directory.written_cons] at wrote
    cases first : request.written? registry name (request.answer (clock 0).val s).1 with
    | some content => exact accepts_of_written first
    | none =>
      rw [first, Option.toList_none, List.nil_append] at wrote
      exact (s.accepts_answer _ request).mp (ih wrote)

/-- Whatever else is asked of it, a directory that was empty shows every schema as its successful writes made it. -/
theorem presents_written {s : Store} (blank : s.Blank) (clock : Nat → { now : Instant // now.Proper })
    (requests : List DirectoryRequest) (registry name : String)
    (few : (Directory.written registry name clock s requests).length < 18446744073709551615) :
    (Directory.after clock s requests).Presents registry name (Directory.written registry name clock s requests) := by
  have none : ((LawfulDirectory.catalog s).shelf registry name).Lists [] := by
    rw [shelf_catalog, blank.shelf]
    exact .empty
  obtain ⟨kept, lists⟩ := Directory.after_lists (σ := Store) clock blank.kept none (by simpa using few)
  rw [shelf_catalog, List.nil_append] at lists
  exact presents_of_lists kept lists (Nat.lt_succ_of_lt few) fun wrote =>
    (accepts_after requests clock s).mpr (accepts_of_written_ne_nil wrote)

/-- Two schemas are written in turn. One update of the first repeats its content, one goes back to an earlier one. -/
def sampleWrites : List DirectoryRequest :=
  [.create ⟨"Shop", "shop.Order", "first", .jsonSchemaDraft4, none⟩,
   .create ⟨"Shop", "shop.Item", "other", .jsonSchemaDraft4, none⟩,
   .update ⟨"Shop", "shop.Order", "first", .jsonSchemaDraft4, none⟩,
   .update ⟨"Shop", "shop.Order", "second", .jsonSchemaDraft4, none⟩,
   .listVersions "Shop" "shop.Order" none,
   .update ⟨"Shop", "shop.Item", "second", .jsonSchemaDraft4, none⟩,
   .create ⟨"Shop", "shop.Order", "third", .jsonSchemaDraft4, none⟩,
   .update ⟨"Shop", "shop.Order", "first", .jsonSchemaDraft4, none⟩]

theorem presents_sampleWrites : (Store.memory (.empty 1)).Blank ∧
    (Directory.written "Shop" "shop.Order" (fun _ => ⟨⟨0, 0⟩, by decide⟩) (Store.memory (.empty 1))
      sampleWrites).length < 18446744073709551615 ∧
    (Directory.after (fun _ => ⟨⟨0, 0⟩, by decide⟩) (Store.memory (.empty 1)) sampleWrites).Presents "Shop" "shop.Order"
      ["first", "second", "first"] := by
  have blank : (Store.memory (.empty 1)).Blank := rfl
  have few := Nat.lt_of_le_of_lt (Directory.length_written_le "Shop" "shop.Order" (fun _ => ⟨⟨0, 0⟩, by decide⟩)
    (Store.memory (.empty 1)) sampleWrites) (show sampleWrites.length < 18446744073709551615 by decide)
  have wrote : Directory.written "Shop" "shop.Order" (fun _ => ⟨⟨0, 0⟩, by decide⟩) (Store.memory (.empty 1))
      sampleWrites = ["first", "second", "first"] := by decide +kernel
  have shown := presents_written blank (fun _ => ⟨⟨0, 0⟩, by decide⟩) sampleWrites "Shop" "shop.Order" few
  rw [wrote] at shown
  exact ⟨blank, few, shown⟩

end Store

end Schemata
