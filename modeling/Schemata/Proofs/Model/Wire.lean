import Schemata.Model.Wire
import Schemata.Proofs.Json.ReadsBack

/-! A model is read back from the document of its own, however deep references, arrays and definitions nest. -/
namespace Schemata

open Record Written

section
variable {depth : Nat}

theorem Scalar.ofWritten?_name (kind : Scalar) : Scalar.ofWritten? (.string kind.name) = some kind := by
  cases kind <;> rfl

namespace Field

/-- A field as it is written, with what is written for its shape. -/
def member (f : Field) (shape : Written) : Written :=
  .object [("name", .string f.name), ("field_type", shape), ("required", .bool f.required)]

theorem ofItems_cons (f : Field) (rest : List Field) : ofItems (toJsonList (f :: rest)) =
    f.member (ofJson f.shape.toJson) :: ofItems (toJsonList rest) := by
  cases f
  rfl

theorem nesting_member (f : Field) (shape : Written) : (f.member shape).nesting = shape.nesting + 1 := by
  simp [member, nesting, nestingMembers]

theorem read?_member {f : Field} {shape : Written} (shaped : Shape.read? depth shape = some f.shape) :
    read? (depth + 1) (f.member shape) = some f := by
  let parts : List (String × Option Written) :=
    [("name", some (.string f.name)), ("field_type", some shape), ("required", some (.bool f.required))]
  have written : f.member shape = .object (present parts) := rfl
  obtain ⟨r, record, found⟩ := of?_parts ["name", "field_type", "required"] written rfl (by decide)
  simp only [parts, List.forall_mem_cons] at found
  obtain ⟨name, field, required, -⟩ := found
  have marked : r.required "required" bool? = some f.required := required_part required rfl
  rw [read?, record]
  simp only [required_string name, required_part field shaped, marked, Option.bind_eq_bind, Option.bind_some]
  cases f
  rfl

end Field

namespace Definition

/-- A definition as it is written, with what is written for its model. -/
def member (d : Definition) (model : Written) : Written := .object [("name", .string d.key), ("descriptor", model)]

theorem ofItems_cons (d : Definition) (rest : List Definition) : ofItems (toJsonList (d :: rest)) =
    d.member (ofJson d.model.toJson) :: ofItems (toJsonList rest) := by
  cases d
  rfl

theorem nesting_member (d : Definition) (model : Written) : (d.member model).nesting = model.nesting + 1 := by
  simp [member, nesting, nestingMembers]

theorem read?_member {d : Definition} {model : Written} (described : Model.read? depth model = some d.model) :
    read? (depth + 1) (d.member model) = some d := by
  let parts : List (String × Option Written) := [("name", some (.string d.key)), ("descriptor", some model)]
  have written : d.member model = .object (present parts) := rfl
  obtain ⟨r, record, found⟩ := of?_parts ["name", "descriptor"] written rfl (by decide)
  simp only [parts, List.forall_mem_cons] at found
  obtain ⟨key, descriptor, -⟩ := found
  rw [read?, record]
  simp only [required_string key, required_part descriptor described, Option.bind_eq_bind, Option.bind_some]
  cases d
  rfl

end Definition

namespace Model

/-- The parts of a model as they are written. -/
def writtenParts (m : Model) : List (String × Option Written) :=
  [("name", some (.string m.name)), ("description", m.description.map .string),
   ("fields", some (.array (ofItems (Field.toJsonList m.fields)))),
   ("definitions", some (.array (ofItems (Definition.toJsonList m.definitions))))]

theorem ofJson_toJson (m : Model) : ofJson m.toJson = .object (present m.writtenParts) := by
  obtain ⟨name, description, fields, definitions⟩ := m
  cases description <;> rfl

theorem nesting_toJson (m : Model) : (ofJson m.toJson).nesting =
    max (nestingItems (ofItems (Field.toJsonList m.fields)))
      (nestingItems (ofItems (Definition.toJsonList m.definitions))) + 2 := by
  obtain ⟨name, description, fields, definitions⟩ := m
  cases description <;> simp [Model.toJson, Json.optional, ofJson, ofMembers, nesting, nestingMembers]

theorem read?_level {m : Model}
    (fields : (ofItems (Field.toJsonList m.fields)).mapM (Field.read? depth) = some m.fields)
    (definitions : (ofItems (Definition.toJsonList m.definitions)).mapM (Definition.read? depth) =
      some m.definitions) : read? (depth + 1) (ofJson m.toJson) = some m := by
  obtain ⟨r, record, found⟩ := of?_parts ["name", "description", "fields", "definitions"] m.ofJson_toJson rfl
    (by decide)
  simp only [writtenParts, List.forall_mem_cons] at found
  obtain ⟨name, description, listed, declared, -⟩ := found
  have listed : r.required "fields" (list? (Field.read? depth)) = some m.fields := required_part listed fields
  have declared : r.defaulted "definitions" [] (list? (Definition.read? depth)) = some m.definitions :=
    defaulted_part declared definitions
  rw [read?, record]
  simp only [required_string name, optional_string description, listed, declared, Option.bind_eq_bind,
    Option.bind_some]
  cases m
  rfl

end Model

end

mutual
theorem Model.read?_toJson : ∀ (m : Model) (depth : Nat), (ofJson m.toJson).nesting < depth →
    Model.read? depth (ofJson m.toJson) = some m
  | _, 0, deep => absurd deep (Nat.not_lt_zero _)
  | ⟨name, description, fields, definitions⟩, depth + 1, shallow => by
    rw [Model.nesting_toJson] at shallow
    dsimp only at shallow
    exact Model.read?_level (Field.read?_toJsonList fields depth (by omega))
      (Definition.read?_toJsonList definitions depth (by omega))

theorem Field.read?_toJsonList : ∀ (fields : List Field) (depth : Nat),
    nestingItems (ofItems (Field.toJsonList fields)) < depth →
    (ofItems (Field.toJsonList fields)).mapM (Field.read? depth) = some fields
  | [], _, _ => rfl
  | _ :: _, 0, deep => absurd deep (Nat.not_lt_zero _)
  | ⟨name, shape, required⟩ :: rest, depth + 1, shallow => by
    rw [Field.ofItems_cons, nestingItems, Field.nesting_member] at shallow
    dsimp only at shallow
    have here := Field.read?_member (f := ⟨name, shape, required⟩) (Shape.read?_toJson shape depth (by omega))
    have later := Field.read?_toJsonList rest (depth + 1) (by omega)
    rw [Field.ofItems_cons, List.mapM_cons, here, later]
    rfl

theorem Definition.read?_toJsonList : ∀ (definitions : List Definition) (depth : Nat),
    nestingItems (ofItems (Definition.toJsonList definitions)) < depth →
    (ofItems (Definition.toJsonList definitions)).mapM (Definition.read? depth) = some definitions
  | [], _, _ => rfl
  | _ :: _, 0, deep => absurd deep (Nat.not_lt_zero _)
  | ⟨key, model⟩ :: rest, depth + 1, shallow => by
    rw [Definition.ofItems_cons, nestingItems, Definition.nesting_member] at shallow
    dsimp only at shallow
    have here := Definition.read?_member (d := ⟨key, model⟩) (Model.read?_toJson model depth (by omega))
    have later := Definition.read?_toJsonList rest (depth + 1) (by omega)
    rw [Definition.ofItems_cons, List.mapM_cons, here, later]
    rfl

theorem Shape.read?_toJson : ∀ (s : Shape) (depth : Nat), (ofJson s.toJson).nesting < depth →
    Shape.read? depth (ofJson s.toJson) = some s
  | _, 0, deep => absurd deep (Nat.not_lt_zero _)
  | .scalar kind, depth + 1, _ => by
    simp only [Shape.toJson, ofJson, ofMembers, Shape.read?, Scalar.ofWritten?_name, Option.map_some]
  | .model target, depth + 1, shallow => by
    simp only [Shape.toJson, ofJson, ofMembers, nesting, nestingMembers] at shallow
    have below := Model.read?_toJson target depth (by omega)
    simp only [Shape.toJson, ofJson, ofMembers, Shape.read?, below, Option.map_some]
  | .array item, depth + 1, shallow => by
    simp only [Shape.toJson, ofJson, ofMembers, nesting, nestingMembers] at shallow
    have below := Shape.read?_toJson item depth (by omega)
    simp only [Shape.toJson, ofJson, ofMembers, Shape.read?, below, Option.map_some]
end

/-- Every model is read back, and so is every model that is read. -/
theorem Model.readsBack : ReadsBack Model.toJson Model.ofWritten? fun _ => True :=
  .of_proper (fun m _ => m.read?_toJson _ (Nat.lt_succ_self _)) fun _ _ _ => trivial

end Schemata
