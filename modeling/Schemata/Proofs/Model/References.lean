import Schemata.Proofs.Model.Canonical

/-! The definitions of a schema document and the references to them. Every model below the root has one
definition, and every reference is to the definition of the model that the field leads to, in a definition to
one that stands before it. Nothing is asked of the models: neither of their names and keys nor of their fields. -/
namespace Schemata

namespace Json

def membersUnder (key : String) (schema : Json) : List (String × Json) :=
  match schema.get? key with
  | some (.object members) => members
  | _ => []

/-- A reference in what describes a property: its own, or one in the items of an array. -/
inductive Cites (pointer : String) : Json → Prop where
  | here {members : List (String × Json)} :
      find? "$ref" members = some (.string pointer) → Cites pointer (.object members)
  | items {members : List (String × Json)} {item : Json} :
      find? "items" members = some item → Cites pointer item → Cites pointer (.object members)

theorem cites_reference {pointer target : String} :
    Cites pointer (.object [("$ref", .string target)]) ↔ pointer = target := by
  constructor
  · intro cites
    cases cites with
    | here found => simpa [find?, eq_comm] using found
    | items found => simp [find?] at found
  · rintro rfl
    exact .here rfl

theorem cites_array {pointer : String} {item : Json} :
    Cites pointer (.object [("type", .string "array"), ("items", item)]) ↔ Cites pointer item := by
  constructor
  · intro cites
    cases cites with
    | here found => simp [find?] at found
    | items found inner =>
      obtain rfl : item = _ := by simpa [find?] using found
      exact inner
  · exact .items rfl

theorem not_cites_scalar {pointer word : String} : ¬ Cites pointer (.object [("type", .string word)]) := by
  intro cites
  cases cites with
  | here found => simp [find?] at found
  | items found => simp [find?] at found

end Json

open Json

/-- What a field is described by refers to the key of what the field leads to, and to nothing else. -/
theorem Shape.cites_schema (entries : Hoisted) {pointer : String} (s : Shape) :
    (s.schema entries).Cites pointer ↔
      ∃ t, s.target? = some t ∧ pointer = definitionsPointer ++ entries.keyOf t := by
  induction s using Shape.target?.induct with
  | case1 kind => simp [Shape.schema, Shape.target?, not_cites_scalar]
  | case2 target => simp [Shape.schema, Shape.target?, cites_reference]
  | case3 item ih => simp [Shape.schema, Shape.target?, cites_array, ih]

/-- What describes the fields of `s` refers to entries among `known`, each field to the entry of the model that
it leads to. -/
def Hoisted.Resolves (entries known : Hoisted) (s : Model) (schema : Json) : Prop :=
  ∀ property ∈ schema.membersUnder "properties", ∃ f ∈ s.fields,
    f.name = property.1 ∧ f.shape.schema entries = property.2 ∧
    ∀ pointer, property.2.Cites pointer ↔
      ∃ entry ∈ known, f.shape.target? = some entry.2 ∧ pointer = definitionsPointer ++ entry.1

theorem Hoisted.resolves_schemaMembers {before : Hoisted} (after : Hoisted) {s : Model}
    (unique : before.models.Nodup) (known : ∀ t, s.Leads t → t ∈ before.models) (more : List (String × Json)) :
    Resolves (before ++ after) before s (.object (s.schemaMembers (before ++ after) ++ more)) := by
  intro property member
  rw [Json.membersUnder, Json.get?, s.find?_properties_distinct] at member
  obtain ⟨f, field, rfl⟩ := List.mem_map.mp (mem_of_mem_distinct member)
  refine ⟨f, field, rfl, rfl, fun pointer => ?_⟩
  rw [Shape.cites_schema]
  constructor
  · rintro ⟨t, target, rfl⟩
    obtain ⟨entry, inside, rfl, key⟩ := Reflection.keyOf_of_mem after (known t (.field field target))
    exact ⟨entry, inside, target, by rw [key]⟩
  · rintro ⟨entry, inside, target, rfl⟩
    obtain ⟨other, inside', same, key⟩ := Reflection.keyOf_of_mem after (known entry.2 (.field field target))
    obtain rfl : other = entry := List.inj_on_of_nodup_map unique inside' inside same
    exact ⟨other.2, target, by rw [key]⟩

theorem Model.membersUnder_definitions (m : Model) : m.toSchema.membersUnder "definitions" =
    m.hoisted.map fun entry => (entry.1, .object (entry.2.schemaMembers m.hoisted)) := by
  have given := m.find?_definitions
  unfold Json.membersUnder
  cases found : m.toSchema.get? "definitions" with
  | none =>
    rw [found, Option.getD_none, Json.object.injEq] at given
    exact given
  | some v =>
    rw [found, Option.getD_some] at given
    rw [given]

/-- The definitions of a schema document are one for each model below the root, under different keys. Every
reference in the root is to the definition of what the field leads to, and every reference in a definition to
one that stands before it. So no field leads to a model without an entry. -/
theorem Model.toSchema_definitions (m : Model) :
    m.toSchema.membersUnder "definitions" =
      (m.hoisted.map fun entry => (entry.1, .object (entry.2.schemaMembers m.hoisted))) ∧
    m.hoisted.keys.Nodup ∧ m.hoisted.models.Nodup ∧ (∀ t, t ∈ m.hoisted.models ↔ m.Below t) ∧
    m ∉ m.hoisted.models ∧ m.hoisted.Resolves m.hoisted m m.toSchema ∧
    (∀ before entry after, m.hoisted = before ++ entry :: after →
      m.hoisted.Resolves before entry.2 (.object (entry.2.schemaMembers m.hoisted))) ∧
    ∀ s, m.Reaches s → ∀ f ∈ s.fields, ∀ t, f.shape.target? = some t →
      ∃ entry, m.hoisted.find? (fun entry => entry.2 = t) = some entry := by
  obtain ⟨grows, leads⟩ := m.hoisted_grows
  have below (t : Model) : t ∈ m.hoisted.models ↔ m.Below t := by
    refine ⟨fun member => ?_, m.mem_hoisted⟩
    obtain ⟨entry, inside, rfl⟩ := List.mem_map.mp member
    exact Model.below_hoisted inside
  refine ⟨m.membersUnder_definitions, grows.nodup_keys, grows.nodup_models, below,
    fun member => m.not_below_self ((below m).mp member), ?_, ?_, ?_⟩
  · have root := Hoisted.resolves_schemaMembers [] grows.nodup_models leads
    rw [List.append_nil] at root
    exact root _
  · intro before entry after parts
    have unique : before.models.Nodup := (Hoisted.nodup_before grows.nodup_models parts).1
    have inner := Hoisted.resolves_schemaMembers (entry :: after) unique (fun t => grows.ordered parts) []
    rwa [List.append_nil, ← parts] at inner
  · intro s reached f field t target
    have inside : t ∈ m.hoisted.models := (below t).mpr (.tail' reached (.field field target))
    obtain ⟨entry, member, rfl⟩ := List.mem_map.mp inside
    exact Option.isSome_iff_exists.mp (List.find?_isSome.mpr ⟨entry, member, by simp⟩)

end Schemata
