import Schemata.Json.Written

/-! Members of objects: looking them up, putting them, and values none of whose objects gives a key twice. -/
namespace Schemata

namespace Json

theorem mem_of_find? {key : String} {v : Json} {members : List (String × Json)}
    (found : find? key members = some v) : (key, v) ∈ members := by
  induction members with
  | nil => cases found
  | cons entry rest ih =>
    obtain ⟨k, w⟩ := entry
    by_cases same : k = key
    · simp_all [find?]
    · simp only [find?, same, if_false] at found
      exact List.mem_cons_of_mem _ (ih found)

theorem find?_eq_some_iff_of_nodup {members : List (String × Json)} (unique : (members.map (·.1)).Nodup)
    {key : String} {v : Json} : find? key members = some v ↔ (key, v) ∈ members := by
  refine ⟨mem_of_find?, fun inside => ?_⟩
  induction members with
  | nil => cases inside
  | cons entry rest ih =>
    obtain ⟨alone, unique'⟩ := List.nodup_cons.mp unique
    rcases List.mem_cons.mp inside with rfl | later
    · simp [find?]
    · have apart : entry.1 ≠ key := by
        rintro rfl
        exact alone (List.mem_map.mpr ⟨_, later, rfl⟩)
      simp [find?, apart, ih unique' later]

theorem find?_append (key : String) (a b : List (String × Json)) :
    find? key (a ++ b) = (find? key a).or (find? key b) := by
  induction a with
  | nil => rfl
  | cons entry rest ih =>
    obtain ⟨k, v⟩ := entry
    by_cases same : k = key
    · simp [find?, same]
    · simp [find?, same, ih]

theorem find?_put_same (key : String) (v : Json) (members : List (String × Json)) :
    find? key (put key v members) = some v := by
  induction members with
  | nil => simp [put, find?]
  | cons entry rest ih =>
    obtain ⟨k, w⟩ := entry
    by_cases same : k = key
    · simp [put, find?, same]
    · simp [put, find?, same, ih]

theorem find?_put_other {key other : String} (apart : other ≠ key) (v : Json)
    (members : List (String × Json)) : find? other (put key v members) = find? other members := by
  induction members with
  | nil => simp [put, find?, Ne.symm apart]
  | cons entry rest ih =>
    obtain ⟨k, w⟩ := entry
    by_cases same : k = key
    · subst k
      simp [put, find?, Ne.symm apart]
    · simp [put, find?, same, ih]

theorem put_append {key : String} {v : Json} {members : List (String × Json)}
    (free : key ∉ members.map (·.1)) : put key v members = members ++ [(key, v)] := by
  induction members with
  | nil => rfl
  | cons entry rest ih =>
    have apart : entry.1 ≠ key := fun same => free (by simp [same])
    have free' : key ∉ rest.map (·.1) := fun member => free (List.mem_cons_of_mem _ member)
    simp [put, apart, ih free']

theorem keys_put_of_mem {key : String} {v : Json} {members : List (String × Json)}
    (taken : key ∈ members.map (·.1)) : (put key v members).map (·.1) = members.map (·.1) := by
  induction members with
  | nil => cases taken
  | cons entry rest ih =>
    by_cases same : entry.1 = key
    · simp [put, same]
    · have later : key ∈ rest.map (·.1) := (List.mem_cons.mp taken).resolve_left (Ne.symm same)
      simp [put, same, ih later]

theorem nodup_put (key : String) (v : Json) {members : List (String × Json)}
    (unique : (members.map (·.1)).Nodup) : ((put key v members).map (·.1)).Nodup := by
  by_cases taken : key ∈ members.map (·.1)
  · rwa [keys_put_of_mem taken]
  · rw [put_append taken, List.map_append, List.nodup_append]
    refine ⟨unique, by simp, fun k member l last same => taken ?_⟩
    have named : l = key := List.mem_singleton.mp last
    rwa [← named, ← same]

/-- Objects with the same keys, none of them twice, are the same if their members are. -/
theorem members_ext {a b : List (String × Json)} (unique : (a.map (·.1)).Nodup) (keys : a.map (·.1) = b.map (·.1))
    (values : ∀ key v w, find? key a = some v → find? key b = some w → v = w) : a = b := by
  induction a generalizing b with
  | nil => exact (List.map_eq_nil_iff.mp keys.symm).symm
  | cons entry rest ih =>
    obtain ⟨key, v⟩ := entry
    obtain ⟨⟨key', w⟩, others, rfl, head, tail⟩ := List.map_eq_cons_iff.mp keys.symm
    obtain rfl : key' = key := head
    obtain ⟨alone, unique'⟩ := List.nodup_cons.mp unique
    have same : v = w := values key' v w (by simp [find?]) (by simp [find?])
    have later : rest = others := by
      refine ih unique' tail.symm fun other x y inside inside' => ?_
      have apart : key' ≠ other := by
        rintro rfl
        exact alone (List.mem_map.mpr ⟨_, mem_of_find? inside, rfl⟩)
      exact values other x y (by simpa [find?, apart] using inside) (by simpa [find?, apart] using inside')
    rw [same, later]

/-- No key is left twice. -/
theorem nodup_distinct (members : List (String × Json)) : ((distinct members).map (·.1)).Nodup := by
  have general : ∀ rest kept : List (String × Json), (kept.map (·.1)).Nodup →
      ((rest.foldl (fun kept member => put member.1 member.2 kept) kept).map (·.1)).Nodup := by
    intro rest
    induction rest with
    | nil => exact fun kept unique => unique
    | cons entry rest ih => exact fun kept unique => ih _ (nodup_put entry.1 entry.2 unique)
  exact general members [] List.nodup_nil

/-- Members with pairwise different keys stay as they are. -/
theorem distinct_of_nodup {members : List (String × Json)} (unique : (members.map (·.1)).Nodup) :
    distinct members = members := by
  have general : ∀ rest kept : List (String × Json), ((kept ++ rest).map (·.1)).Nodup →
      rest.foldl (fun kept member => put member.1 member.2 kept) kept = kept ++ rest := by
    intro rest
    induction rest with
    | nil => intro kept _; simp
    | cons entry rest ih =>
      intro kept unique
      have free : entry.1 ∉ kept.map (·.1) := by
        rw [List.map_append, List.map_cons, List.nodup_append] at unique
        intro member
        exact unique.2.2 _ member _ List.mem_cons_self rfl
      rw [List.foldl_cons, put_append free, ih]
      · simp
      · simpa using unique
  exact general members [] unique

theorem mem_of_mem_put {key : String} {v : Json} {members : List (String × Json)}
    {member : String × Json} (inside : member ∈ put key v members) :
    member = (key, v) ∨ member ∈ members := by
  induction members with
  | nil => simpa [put] using inside
  | cons entry rest ih =>
    obtain ⟨k, w⟩ := entry
    unfold put at inside
    split at inside
    · rcases List.mem_cons.mp inside with new | later
      · rename_i same
        exact .inl (by rw [new, same])
      · exact .inr (List.mem_cons_of_mem _ later)
    · rcases List.mem_cons.mp inside with first | later
      · exact .inr (by simp [first])
      · exact (ih later).imp_right (List.mem_cons_of_mem _)

/-- What is left was there. -/
theorem mem_of_mem_distinct {members : List (String × Json)} {member : String × Json}
    (inside : member ∈ distinct members) : member ∈ members := by
  have general : ∀ rest kept : List (String × Json),
      member ∈ rest.foldl (fun kept member => put member.1 member.2 kept) kept →
      member ∈ kept ∨ member ∈ rest := by
    intro rest
    induction rest with
    | nil => exact fun kept here => .inl here
    | cons entry rest ih =>
      intro kept here
      rcases ih _ here with old | later
      · rcases mem_of_mem_put old with new | old
        · exact .inr (by simp [new])
        · exact .inl old
      · exact .inr (List.mem_cons_of_mem _ later)
  exact (general members [] inside).resolve_left List.not_mem_nil

mutual
/-- No object in the value gives a key twice. -/
def Unrepeated : Json → Prop
  | array items => UnrepeatedItems items
  | object members => (members.map (·.1)).Nodup ∧ UnrepeatedMembers members
  | _ => True

def UnrepeatedItems : List Json → Prop
  | [] => True
  | v :: rest => Unrepeated v ∧ UnrepeatedItems rest

def UnrepeatedMembers : List (String × Json) → Prop
  | [] => True
  | (_, v) :: rest => Unrepeated v ∧ UnrepeatedMembers rest
end

theorem unrepeatedItems_iff {items : List Json} : UnrepeatedItems items ↔ ∀ v ∈ items, v.Unrepeated := by
  induction items with
  | nil => simp [UnrepeatedItems]
  | cons v rest ih => simp [UnrepeatedItems, ih]

theorem unrepeatedMembers_iff {members : List (String × Json)} :
    UnrepeatedMembers members ↔ ∀ member ∈ members, member.2.Unrepeated := by
  induction members with
  | nil => simp [UnrepeatedMembers]
  | cons entry rest ih => simp [UnrepeatedMembers, ih]

end Json

namespace Written

open Json

mutual
/-- A written value is that value, if no object in it gives a key twice. -/
theorem value?_ofJson : ∀ {v : Json}, v.Unrepeated → (ofJson v).value? = some v
  | .null, _ | .bool _, _ | .number _, _ | .string _, _ => rfl
  | .array items, unique => by
    rw [ofJson, value?, values?_ofItems unique]
    rfl
  | .object members, ⟨unique, below⟩ => by
    rw [ofJson, value?, memberValues?_ofMembers below, Option.map_some, distinct_of_nodup unique]

theorem values?_ofItems : ∀ {items : List Json}, UnrepeatedItems items → values? (ofItems items) = some items
  | [], _ => rfl
  | v :: rest, ⟨here, later⟩ => by
    rw [ofItems, values?, value?_ofJson here, values?_ofItems later]

theorem memberValues?_ofMembers : ∀ {members : List (String × Json)}, UnrepeatedMembers members →
    memberValues? (ofMembers members) = some members
  | [], _ => rfl
  | (key, v) :: rest, ⟨here, later⟩ => by
    rw [ofMembers, memberValues?, value?_ofJson here, memberValues?_ofMembers later]
end

mutual
/-- No object in a value that was read gives a key twice. -/
theorem unrepeated_of_value? : ∀ {w : Written} {v : Json}, w.value? = some v → v.Unrepeated
  | .faulty, _, found => by cases found
  | .null, _, found | .bool _, _, found | .number _, _, found | .string _, _, found => by
    cases found
    trivial
  | .array items, _, found => by
    obtain ⟨values, read, rfl⟩ := Option.map_eq_some_iff.mp found
    exact unrepeated_of_values? read
  | .object members, _, found => by
    obtain ⟨values, read, rfl⟩ := Option.map_eq_some_iff.mp found
    have below := unrepeatedMembers_iff.mp (unrepeated_of_memberValues? read)
    exact ⟨nodup_distinct values, unrepeatedMembers_iff.mpr fun member inside =>
      below member (mem_of_mem_distinct inside)⟩

theorem unrepeated_of_values? : ∀ {items : List Written} {values : List Json}, values? items = some values →
    UnrepeatedItems values
  | [], _, found => by
    cases found
    trivial
  | w :: rest, _, found => by
    unfold values? at found
    split at found
    · rename_i v more here later
      cases found
      exact ⟨unrepeated_of_value? here, unrepeated_of_values? later⟩
    · cases found

theorem unrepeated_of_memberValues? : ∀ {members : List (String × Written)} {values : List (String × Json)},
    memberValues? members = some values → UnrepeatedMembers values
  | [], _, found => by
    cases found
    trivial
  | (key, w) :: rest, _, found => by
    unfold memberValues? at found
    split at found
    · rename_i v more here later
      cases found
      exact ⟨unrepeated_of_value? here, unrepeated_of_memberValues? later⟩
    · cases found
end

end Written

end Schemata
