import Schemata.Proofs.Json.Members
import Schemata.Proofs.Json.Reading

/-! Values that are the same after they have been written as a text and read back: their numbers are whole,
no object gives a key twice, and they do not nest too deep. Values with whole numbers have different texts, however
deep they nest. -/
namespace Schemata.Json

open Written (ofJson ofItems ofMembers nestingItems nestingMembers)

theorem nestingItems_le_iff {items : List Json} {limit : Nat} :
    nestingItems (ofItems items) ≤ limit ↔ ∀ v ∈ items, (ofJson v).nesting ≤ limit := by
  induction items with
  | nil => simp [ofItems, nestingItems]
  | cons v rest ih => simp only [ofItems, nestingItems, Nat.max_le, ih, List.forall_mem_cons]

theorem nestingMembers_le_iff {members : List (String × Json)} {limit : Nat} :
    nestingMembers (ofMembers members) ≤ limit ↔ ∀ member ∈ members, (ofJson member.2).nesting ≤ limit := by
  induction members with
  | nil => simp [ofMembers, nestingMembers]
  | cons entry rest ih => simp only [ofMembers, nestingMembers, Nat.max_le, ih, List.forall_mem_cons]

/-- A value with whole numbers in which no object gives a key twice. -/
structure Plain (v : Json) : Prop where
  exact : v.Exact
  unrepeated : v.Unrepeated

theorem plain_array {items : List Json} (below : ∀ v ∈ items, v.Plain) : (array items).Plain where
  exact := exactItems_iff.mpr fun v member => (below v member).exact
  unrepeated := unrepeatedItems_iff.mpr fun v member => (below v member).unrepeated

theorem plain_object {members : List (String × Json)} (unique : (members.map (·.1)).Nodup)
    (below : ∀ member ∈ members, member.2.Plain) : (object members).Plain where
  exact := exactMembers_iff.mpr fun member inside => (below member inside).exact
  unrepeated := ⟨unique, unrepeatedMembers_iff.mpr fun member inside => (below member inside).unrepeated⟩

structure Readable (limit : Nat) (v : Json) : Prop extends v.Plain where
  shallow : (ofJson v).nesting ≤ limit

theorem Readable.mono {low high : Nat} {v : Json} (readable : v.Readable low) (le : low ≤ high) :
    v.Readable high := ⟨readable.toPlain, Nat.le_trans readable.shallow le⟩

theorem readable_string (limit : Nat) (s : String) : (string s).Readable limit :=
  ⟨⟨trivial, trivial⟩, Nat.zero_le limit⟩

theorem readable_array {limit : Nat} {items : List Json} (below : ∀ v ∈ items, v.Readable limit) :
    (array items).Readable (limit + 1) :=
  ⟨plain_array fun v member => (below v member).toPlain,
    Nat.succ_le_succ (nestingItems_le_iff.mpr fun v member => (below v member).shallow)⟩

theorem readable_object {limit : Nat} {members : List (String × Json)} (unique : (members.map (·.1)).Nodup)
    (below : ∀ member ∈ members, member.2.Readable limit) : (object members).Readable (limit + 1) :=
  ⟨plain_object unique fun member inside => (below member inside).toPlain,
    Nat.succ_le_succ (nestingMembers_le_iff.mpr fun member inside => (below member inside).shallow)⟩

theorem Readable.ofText?_text {v : Json} (readable : v.Readable nestingLimit) : ofText? v.text = some v := by
  rw [ofText?, Written.ofText?_text readable.exact readable.shallow]
  exact Written.value?_ofJson readable.unrepeated

mutual
theorem eq_of_ofJson_eq : ∀ {a b : Json}, ofJson a = ofJson b → a = b
  | null, b, same | bool _, b, same | number _, b, same | string _, b, same => by
    cases b <;> simp_all [ofJson]
  | array items, b, same => by
    cases b with
    | array others =>
      rw [ofJson, ofJson, Written.array.injEq] at same
      rw [eq_of_ofItems_eq same]
    | _ => simp [ofJson] at same
  | object members, b, same => by
    cases b with
    | object others =>
      rw [ofJson, ofJson, Written.object.injEq] at same
      rw [eq_of_ofMembers_eq same]
    | _ => simp [ofJson] at same

theorem eq_of_ofItems_eq : ∀ {as bs : List Json}, ofItems as = ofItems bs → as = bs
  | [], bs, same => by cases bs <;> simp_all [ofItems]
  | a :: as, bs, same => by
    cases bs with
    | nil => simp [ofItems] at same
    | cons b bs =>
      rw [ofItems, ofItems, List.cons.injEq] at same
      rw [eq_of_ofJson_eq same.1, eq_of_ofItems_eq same.2]

theorem eq_of_ofMembers_eq : ∀ {as bs : List (String × Json)}, ofMembers as = ofMembers bs → as = bs
  | [], bs, same => by cases bs <;> simp_all [ofMembers]
  | (key, a) :: as, bs, same => by
    cases bs with
    | nil => simp [ofMembers] at same
    | cons entry bs =>
      obtain ⟨other, b⟩ := entry
      rw [ofMembers, ofMembers, List.cons.injEq, Prod.mk.injEq] at same
      rw [same.1.1, eq_of_ofJson_eq same.1.2, eq_of_ofMembers_eq same.2]
end

/-- A text spells one value: both are read from it, by a reader that goes as deep as they nest. -/
theorem eq_of_text_eq {a b : Json} (exactA : a.Exact) (exactB : b.Exact) (same : a.text = b.text) : a = b := by
  have spelled : a.spell .oneLine 0 = b.spell .oneLine 0 := by
    rw [← compact_eq_spell a, ← compact_eq_spell b]
    exact String.ofList_injective same
  have readA := readValue_spell .oneLine a exactA (Nat.le_max_left _ (ofJson b).nesting) 0 ended_nil
  have readB := readValue_spell .oneLine b exactB (Nat.le_max_right (ofJson a).nesting _) 0 ended_nil
  rw [spelled, readB, Option.some.injEq, Prod.mk.injEq] at readA
  exact (eq_of_ofJson_eq readA.1).symm

end Schemata.Json
