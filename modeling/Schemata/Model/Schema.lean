import Schemata.Document
import Schemata.Model.Basic
import Schemata.Text.Digits

/-!
The schema document of a model.

Every model reachable from the root, through definitions and through what fields lead to, gets one entry
under the root's `definitions`, after the entries that it refers to itself. Equal models share an entry;
different models that ask for one key get it with a number from 2 on.
-/
namespace Schemata

abbrev Hoisted := List (String × Model)

def numberedKey (preferred : String) (n : Nat) : String :=
  preferred ++ String.ofList (Text.decimal n)

/-- The first numbered key from `n` on that is not taken. One of as many candidates as there are taken keys
is free, so with that bound the search never ends for want of steps. -/
def firstFreeKey (preferred : String) (taken : List String) : (bound n : Nat) → String
  | 0, n => numberedKey preferred n
  | bound + 1, n =>
    if numberedKey preferred n ∈ taken then firstFreeKey preferred taken bound (n + 1)
    else numberedKey preferred n

def freeKey (preferred : String) (taken : List String) : String :=
  if preferred ∈ taken then firstFreeKey preferred taken taken.length 2 else preferred

mutual
/-- Adds a model after all that it leads to, unless an equal one is there. -/
def Model.hoist (key : String) (out : Hoisted) : Model → Hoisted
  | ⟨name, description, fields, definitions⟩ =>
    if out.any fun entry => entry.2 = ⟨name, description, fields, definitions⟩ then out
    else
      let out := Field.hoistAll (Definition.hoistAll out definitions) fields
      out ++ [(freeKey key (out.map (·.1)), ⟨name, description, fields, definitions⟩)]

def Definition.hoistAll (out : Hoisted) : List Definition → Hoisted
  | [] => out
  | ⟨key, model⟩ :: rest => Definition.hoistAll (model.hoist key out) rest

def Field.hoistAll (out : Hoisted) : List Field → Hoisted
  | [] => out
  | ⟨_, shape, _⟩ :: rest => Field.hoistAll (shape.hoist out) rest

def Shape.hoist (out : Hoisted) : Shape → Hoisted
  | .scalar _ => out
  | .model target => target.hoist target.name out
  | .array item => item.hoist out
end

/-- All entries below a root: those of its definitions, then those that its fields lead to. -/
def Model.hoisted (m : Model) : Hoisted := Field.hoistAll (Definition.hoistAll [] m.definitions) m.fields

def definitionsPointer : String := "#/definitions/"

def Scalar.keyword : Scalar → String
  | .string => "string"
  | .bool => "boolean"
  | .int => "integer"

/-- The key that a model was given; its own name if it was given none. -/
def Hoisted.keyOf (entries : Hoisted) (m : Model) : String :=
  ((entries.find? fun entry => entry.2 = m).map (·.1)).getD m.name

def Shape.schema (entries : Hoisted) : Shape → Json
  | .scalar kind => .object [("type", .string kind.keyword)]
  | .model target => .object [("$ref", .string (definitionsPointer ++ entries.keyOf target))]
  | .array item => .object [("type", .string "array"), ("items", item.schema entries)]

/-- The members of a model's schema, without definitions. Of two fields with one name the later one is
described, in the place of the earlier one. -/
def Model.schemaMembers (entries : Hoisted) (m : Model) : List (String × Json) :=
  [("title", .string m.name)] ++ Json.optional "description" m.description ++
    [("type", .string "object"),
     ("properties", .object (Json.distinct (m.fields.map fun f => (f.name, f.shape.schema entries))))] ++
    (if m.requiredNames.isEmpty then []
     else [("required", .array (m.requiredNames.map .string))])

def Model.toSchema (m : Model) : Json :=
  let entries := m.hoisted
  .object (m.schemaMembers entries ++
    (if entries.isEmpty then []
     else [("definitions", .object (entries.map fun entry =>
        (entry.1, .object (entry.2.schemaMembers entries))))]))

def Model.document (m : Model) : Document := .ofJson m.toSchema

/-- The same for all models with one name and one schema text. -/
def Model.handle (m : Model) : Handle := ⟨m.name, .ofJson m.toSchema⟩

end Schemata
