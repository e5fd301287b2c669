import Schemata.Json.Record
import Schemata.Model.Basic

/-!
Models as documents of their own: every field and definition spelled out, so that a model is read back as
it was written.
-/
namespace Schemata

namespace Scalar

def name : Scalar → String
  | string => "string"
  | bool => "bool"
  | int => "int"

def ofName? : String → Option Scalar
  | "string" => some string
  | "bool" => some bool
  | "int" => some int
  | _ => none

def ofWritten? (w : Written) : Option Scalar := w.name?.bind ofName?

end Scalar

mutual
def Model.toJson : Model → Json
  | ⟨name, description, fields, definitions⟩ =>
    .object (("name", .string name) :: Json.optional "description" description ++
      [("fields", .array (Field.toJsonList fields)),
       ("definitions", .array (Definition.toJsonList definitions))])

def Field.toJsonList : List Field → List Json
  | [] => []
  | ⟨name, shape, required⟩ :: rest =>
    .object [("name", .string name), ("field_type", shape.toJson), ("required", .bool required)] ::
      Field.toJsonList rest

def Definition.toJsonList : List Definition → List Json
  | [] => []
  | ⟨key, model⟩ :: rest =>
    .object [("name", .string key), ("descriptor", model.toJson)] :: Definition.toJsonList rest

def Shape.toJson : Shape → Json
  | .scalar kind => .object [("Primitive", .string kind.name)]
  | .model target => .object [("Reference", target.toJson)]
  | .array item => .object [("ArrayOf", item.toJson)]
end

mutual
/-- Reads a model from a document that nests less than `depth`. -/
def Model.read? : (depth : Nat) → Written → Option Model
  | 0, _ => none
  | depth + 1, w => do
    let r ← Record.of? ["name", "description", "fields", "definitions"] w
    let name ← r.required "name" Written.string?
    let description ← r.optional "description" Written.string?
    let fields ← r.required "fields" (Written.list? (Field.read? depth))
    let definitions ← r.defaulted "definitions" [] (Written.list? (Definition.read? depth))
    return ⟨name, description, fields, definitions⟩

def Field.read? : (depth : Nat) → Written → Option Field
  | 0, _ => none
  | depth + 1, w => do
    let r ← Record.of? ["name", "field_type", "required"] w
    let name ← r.required "name" Written.string?
    let shape ← r.required "field_type" (Shape.read? depth)
    let required ← r.required "required" Written.bool?
    return ⟨name, shape, required⟩

def Definition.read? : (depth : Nat) → Written → Option Definition
  | 0, _ => none
  | depth + 1, w => do
    let r ← Record.of? ["name", "descriptor"] w
    let key ← r.required "name" Written.string?
    let model ← r.required "descriptor" (Model.read? depth)
    return ⟨key, model⟩

def Shape.read? : (depth : Nat) → Written → Option Shape
  | 0, _ => none
  | depth + 1, w =>
    match w with
    | .object [("Primitive", w)] => (Scalar.ofWritten? w).map .scalar
    | .object [("Reference", w)] => (Model.read? depth w).map .model
    | .object [("ArrayOf", w)] => (Shape.read? depth w).map .array
    | _ => none
end

def Model.ofWritten? (w : Written) : Option Model := Model.read? (w.nesting + 1) w

def Shape.ofWritten? (w : Written) : Option Shape := Shape.read? (w.nesting + 1) w

end Schemata
