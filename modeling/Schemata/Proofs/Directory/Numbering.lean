import Schemata.Proofs.Directory.Shelves

/-! Shelves that only creating and updating have filled: the versions of a schema are numbered from 1 without
a gap, and what has been put on a shelf stays there. -/
namespace Schemata

open Table

/-- The versions are those from 1 to the size of the shelf. -/
def Shelf.Numbered (shelf : Shelf) : Prop :=
  shelf.keys = (List.range shelf.size).map fun n => VersionId.ofNat (n + 1)

namespace Shelf.Numbered

variable {shelf : Shelf}

theorem empty : Shelf.Numbered Table.empty := rfl

/-- The greatest version is the one whose number is the size. -/
theorem last (numbered : shelf.Numbered) {id : VersionId} {content : Option String}
    (greatest : shelf.last? = some (id, content)) : id = .ofNat shelf.size := by
  have key : shelf.keys.getLast? = some id := by
    rw [keys, List.getLast?_map, ← last?, greatest]
    rfl
  rw [numbered] at key
  cases size : shelf.size with
  | zero => simp [size] at key
  | succ n =>
    rw [size, List.range_succ, List.map_append, List.map_cons, List.map_nil, List.getLast?_concat] at key
    exact (Option.some.inj key).symm

/-- The next number comes after all that are there. -/
theorem before_next (numbered : shelf.Numbered) {id : VersionId} {content : Option String}
    (inside : (id, content) ∈ shelf.entries) : Key.order id (.ofNat (shelf.size + 1)) = .lt := by
  have key : id ∈ shelf.keys := List.mem_map.mpr ⟨_, inside, rfl⟩
  rw [numbered, List.mem_map] at key
  obtain ⟨n, small, rfl⟩ := key
  exact VersionId.order_ofNat (by simpa using small)

theorem get?_next (numbered : shelf.Numbered) : shelf.get? (.ofNat (shelf.size + 1)) = none := by
  apply Option.eq_none_iff_forall_ne_some.mpr
  intro content found
  have loop := numbered.before_next (mem_of_get? found)
  rw [Key.order_self] at loop
  cases loop

theorem entries_insert_next (numbered : shelf.Numbered) (content : Option String) :
    (shelf.insert (.ofNat (shelf.size + 1)) content).entries =
      shelf.entries ++ [(.ofNat (shelf.size + 1), content)] :=
  insert_of_all_lt content fun _ inside => numbered.before_next inside

theorem size_insert_next (numbered : shelf.Numbered) (content : Option String) :
    (shelf.insert (.ofNat (shelf.size + 1)) content).size = shelf.size + 1 := by
  rw [Table.size, numbered.entries_insert_next, List.length_append]
  rfl

theorem insert_next (numbered : shelf.Numbered) (content : Option String) :
    Shelf.Numbered (shelf.insert (.ofNat (shelf.size + 1)) content) := by
  rw [Shelf.Numbered, numbered.size_insert_next, keys, numbered.entries_insert_next, List.map_append, ← keys,
    numbered, List.range_succ, List.map_append]
  rfl

theorem last_insert_next (numbered : shelf.Numbered) (content : Option String) :
    (shelf.insert (.ofNat (shelf.size + 1)) content).last? = some (.ofNat (shelf.size + 1), content) := by
  rw [last?, numbered.entries_insert_next, List.getLast?_concat]

end Shelf.Numbered

namespace Shelves

/-- Nothing has been taken off a shelf or changed on it. -/
def Extends (after before : Shelves) : Prop :=
  ∀ registry name id content, (before registry name).get? id = some content →
    (after registry name).get? id = some content

theorem Extends.refl (shelves : Shelves) : shelves.Extends shelves := fun _ _ _ _ found => found

theorem Extends.trans {a b c : Shelves} (later : c.Extends b) (earlier : b.Extends a) : c.Extends a :=
  fun registry name id content found => later registry name id content (earlier registry name id content found)

/-- The shelves are as before, or one of some contents has been put under the next number of a schema. -/
inductive Adds (contents : List String) (before : Shelves) : Shelves → Prop where
  | nothing : Adds contents before before
  | next (request : PutRequest) : request.content ∈ contents →
    Adds contents before (before.put request (.ofNat ((before request.registry request.name).size + 1)))

section
variable {contents : List String} {before after : Shelves} (adds : Adds contents before after)
  (numbered : ∀ registry name, (before registry name).Numbered)
include adds

/-- What is new is one of the contents. -/
theorem Adds.origin {registry name : String} {id : VersionId} {content : Option String}
    (found : (after registry name).get? id = some content) :
    (before registry name).get? id = some content ∨ ∃ text ∈ contents, content = some text := by
  cases adds with
  | nothing => exact .inl found
  | next request given =>
    rw [get?_put] at found
    split at found
    · exact .inr ⟨_, given, (Option.some.inj found).symm⟩
    · exact .inl found

include numbered

theorem Adds.still_numbered (registry name : String) : (after registry name).Numbered := by
  cases adds with
  | nothing => exact numbered registry name
  | next request given =>
    unfold put
    split
    · rename_i schema
      rw [← schema.1, ← schema.2]
      exact (numbered registry name).insert_next _
    · exact numbered registry name

theorem Adds.size_le (registry name : String) : (after registry name).size ≤ (before registry name).size + 1 := by
  cases adds with
  | nothing => exact Nat.le_succ _
  | next request given =>
    unfold put
    split
    · rename_i schema
      rw [← schema.1, ← schema.2]
      exact Nat.le_of_eq ((numbered registry name).size_insert_next _)
    · exact Nat.le_succ _

theorem Adds.extends : after.Extends before := by
  cases adds with
  | nothing => exact .refl _
  | next request given =>
    intro registry name id content found
    rw [get?_put]
    split
    · rename_i all
      obtain ⟨rfl, rfl, rfl⟩ := all
      rw [(numbered _ _).get?_next] at found
      cases found
    · exact found

end

/-- What an answered write of a request has done: if it has not failed, the content has been put under the
next number. -/
def Wrote (request : PutRequest) (before : Shelves) (answer : Except DirectoryError Receipt)
    (after : Shelves) : Prop :=
  (∃ e, answer = .error e) ∧ after = before ∨ ∃ receipt, answer = .ok receipt ∧
    receipt.name = request.name ∧
    VersionId.mk receipt.version = .ofNat ((before request.registry request.name).size + 1) ∧
    after = before.put request ⟨receipt.version⟩

section
variable {request : PutRequest} {before after : Shelves} {answer : Except DirectoryError Receipt}

theorem Created.wrote (created : Created request before answer after) :
    Wrote request before answer after := by
  cases created with
  | refused => exact .inl ⟨⟨_, rfl⟩, rfl⟩
  | added none named version =>
    refine .inr ⟨_, rfl, named, ?_, by rw [version]⟩
    rw [version, none]
    exact VersionId.first_eq

theorem Updated.wrote (updated : Updated request before answer after)
    (numbered : (before request.registry request.name).Numbered)
    (small : (before request.registry request.name).size < 18446744073709551615) :
    Wrote request before answer after := by
  cases updated with
  | refused => exact .inl ⟨⟨_, rfl⟩, rfl⟩
  | unchanged => exact .inl ⟨⟨_, rfl⟩, rfl⟩
  | added last differs named version =>
    have greatest := numbered.last last
    refine .inr ⟨_, rfl, named, ?_, by rw [version]⟩
    rw [version, VersionId.next_of_countable (by rw [greatest]; exact ⟨by simp, by simp; omega⟩), greatest,
      VersionId.number_ofNat]

variable (wrote : Wrote request before answer after)
include wrote

theorem Wrote.adds : Adds [request.content] before after := by
  rcases wrote with ⟨-, rfl⟩ | ⟨receipt, -, -, version, rfl⟩
  · exact .nothing
  · rw [version]
    exact .next request (List.mem_singleton_self _)

/-- A receipt is for the greatest version, which has the content of the request. -/
theorem Wrote.last {receipt : Receipt} (numbered : ∀ registry name, (before registry name).Numbered)
    (accepted : answer = .ok receipt) : receipt.name = request.name ∧
      (after request.registry request.name).last? = some (⟨receipt.version⟩, some request.content) := by
  rcases wrote with ⟨⟨e, rfl⟩, -⟩ | ⟨receipt', rfl, named, version, rfl⟩
  · cases accepted
  · cases accepted
    refine ⟨named, ?_⟩
    rw [put, if_pos ⟨rfl, rfl⟩, version]
    exact (numbered _ _).last_insert_next _

end

end Shelves

end Schemata
