import Schemata.Json.Basic

/-!
Models: the structural types that schema documents describe.

A model is a row of named fields. A field holds a scalar, a nested model, or an array of one of those; a
model may also declare definitions, nested models under keys of their own.
-/
namespace Schemata

inductive Scalar where
  | string
  | bool
  | int
deriving DecidableEq, Repr

mutual
structure Model where
  name : String
  description : Option String
  fields : List Field
  definitions : List Definition

structure Field where
  name : String
  shape : Shape
  required : Bool

structure Definition where
  key : String
  model : Model

/-- What a field holds. -/
inductive Shape where
  | scalar (kind : Scalar)
  | model (target : Model)
  | array (item : Shape)
end

mutual
/-- Structural equality, the order of fields and definitions included. -/
def Model.beq : Model → Model → Bool
  | ⟨n, d, fs, ds⟩, ⟨n', d', fs', ds'⟩ =>
    n == n' && d == d' && Field.beqList fs fs' && Definition.beqList ds ds'

def Field.beqList : List Field → List Field → Bool
  | [], [] => true
  | ⟨n, s, r⟩ :: fs, ⟨n', s', r'⟩ :: fs' => n == n' && s.beq s' && r == r' && Field.beqList fs fs'
  | _, _ => false

def Definition.beqList : List Definition → List Definition → Bool
  | [], [] => true
  | ⟨k, m⟩ :: ds, ⟨k', m'⟩ :: ds' => k == k' && m.beq m' && Definition.beqList ds ds'
  | _, _ => false

def Shape.beq : Shape → Shape → Bool
  | .scalar k, .scalar k' => k == k'
  | .model m, .model m' => m.beq m'
  | .array s, .array s' => s.beq s'
  | _, _ => false
end

mutual
theorem Model.beq_iff : ∀ a b : Model, a.beq b = true ↔ a = b
  | ⟨n, d, fs, ds⟩, ⟨n', d', fs', ds'⟩ => by
    simp [Model.beq, Field.beqList_iff fs fs', Definition.beqList_iff ds ds', and_assoc]

theorem Field.beqList_iff : ∀ a b : List Field, Field.beqList a b = true ↔ a = b
  | [], b => by cases b <;> simp [Field.beqList]
  | ⟨n, s, r⟩ :: fs, b => by
    rcases b with _ | ⟨⟨n', s', r'⟩, fs'⟩ <;>
      simp [Field.beqList, Shape.beq_iff s, Field.beqList_iff fs, and_assoc]

theorem Definition.beqList_iff : ∀ a b : List Definition, Definition.beqList a b = true ↔ a = b
  | [], b => by cases b <;> simp [Definition.beqList]
  | ⟨k, m⟩ :: ds, b => by
    rcases b with _ | ⟨⟨k', m'⟩, ds'⟩ <;>
      simp [Definition.beqList, Model.beq_iff m, Definition.beqList_iff ds, and_assoc]

theorem Shape.beq_iff : ∀ a b : Shape, a.beq b = true ↔ a = b
  | .scalar k, b => by cases b <;> simp [Shape.beq]
  | .model m, b => by cases b <;> simp [Shape.beq, Model.beq_iff m]
  | .array s, b => by cases b <;> simp [Shape.beq, Shape.beq_iff s]
end

instance : DecidableEq Model := fun a b => decidable_of_iff _ (Model.beq_iff a b)

instance : DecidableEq Shape := fun a b => decidable_of_iff _ (Shape.beq_iff a b)

namespace Shape

/-- The model that a field leads to, looking through arrays. -/
def target? : Shape → Option Model
  | scalar _ => none
  | model target => some target
  | array item => item.target?

end Shape

namespace Model

/-- A model without fields and definitions. -/
def named (name : String) : Model := ⟨name, none, [], []⟩

def describe (m : Model) (description : String) : Model := { m with description := some description }

def addField (m : Model) (name : String) (shape : Shape) (required : Bool) : Model :=
  { m with fields := m.fields ++ [⟨name, shape, required⟩] }

def addDefinition (m : Model) (key : String) (model : Model) : Model :=
  { m with definitions := m.definitions ++ [⟨key, model⟩] }

/-- The first field of that name. -/
def field? (m : Model) (name : String) : Option Field := m.fields.find? fun f => f.name = name

/-- The first definition under that key. -/
def definition? (m : Model) (key : String) : Option Model :=
  (m.definitions.find? fun d => d.key = key).map (·.model)

/-- Names of the required fields, in order. -/
def requiredNames (m : Model) : List String := (m.fields.filter (·.required)).map (·.name)

end Model

end Schemata
