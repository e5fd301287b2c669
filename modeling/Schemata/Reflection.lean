import Schemata.Json.Printer
import Schemata.Model.Schema
import Schemata.Text.Split

/-!
Reflection: the model that a schema describes.

Definitions are reflected in their order, and a reference resolves only to what is reflected already: the
earlier siblings first, then the definitions of the enclosing schemas from the inside out.
-/
namespace Schemata

inductive ReflectionError where
  | notAnObject
  | untitled
  | otherType (title : String) (type : Json)
  | untyped (title : String)
  | definitionsNotAnObject (title : String)
  | noProperties (title : String)
  | requiredNotStrings (title : String)
  | requiredNotAList (title : String)
  | propertyNotAnObject (property : String)
  | propertyType (property : String) (type : Json)
  | propertyUntyped (property : String)
  | itemsNotAReference (property : String)
  | pointerNotAString (pointer : Json)
  | pointerNotLocal (pointer : String)
  | undeclared (pointer : String)
deriving Repr

namespace ReflectionError

inductive Family where
  | schema
  | property
  | reference
deriving DecidableEq, Repr

def family : ReflectionError → Family
  | notAnObject | untitled | otherType .. | untyped _ | definitionsNotAnObject _ | noProperties _
  | requiredNotStrings _ | requiredNotAList _ => .schema
  | propertyNotAnObject _ | propertyType .. | propertyUntyped _ | itemsNotAReference _ => .property
  | pointerNotAString _ | pointerNotLocal _ | undeclared _ => .reference

def Family.title : Family → String
  | schema => "Invalid schema shape: "
  | property => "Unsupported shape: "
  | reference => "Unresolvable reference: "

def detail : ReflectionError → String
  | notAnObject => "schema must be a JSON object"
  | untitled => "schema needs a title field"
  | otherType title type => "cannot reflect " ++ title ++ " of type " ++ type.text ++ ", only objects"
  | untyped title => "schema " ++ title ++ " needs a type field"
  | definitionsNotAnObject title => "definitions of " ++ title ++ " must be an object"
  | noProperties title => "no properties are defined for " ++ title
  | requiredNotStrings title => "required list of " ++ title ++ " must hold strings"
  | requiredNotAList title => "required of " ++ title ++ " must be a list"
  | propertyNotAnObject name => "property " ++ name ++ " is not a schema object"
  | propertyType name (.string type) => "property " ++ name ++ " has type " ++ type
  | propertyType name type => "property " ++ name ++ " has type " ++ type.text
  | propertyUntyped name => "property " ++ name ++ " has neither a type nor a $ref"
  | itemsNotAReference name => "array items of " ++ name ++ " must be a single $ref"
  | pointerNotAString pointer => "$ref must be a string, got " ++ pointer.text
  | pointerNotLocal pointer => pointer ++ " is not a local #/definitions/ pointer"
  | undeclared pointer => pointer ++ " does not name a definition declared before it"

def message (e : ReflectionError) : String := e.family.title ++ e.detail

end ReflectionError

namespace Reflection

/-- Definitions that a reference may name, the nearest first. -/
abbrev Visible := List Definition

/-- The key in a pointer `#/definitions/key`; it is not empty and has no slash. -/
def pointerKey? (pointer : String) : Option String :=
  match Text.dropLead? definitionsPointer.toList pointer.toList with
  | some key => if key = [] ∨ '/' ∈ key then none else some (String.ofList key)
  | none => none

def resolve (visible : Visible) (pointer : Json) : Except ReflectionError Model :=
  match pointer with
  | .string text =>
    match pointerKey? text with
    | none => .error (.pointerNotLocal text)
    | some key =>
      match visible.find? fun d => d.key = key with
      | some d => .ok d.model
      | none => .error (.undeclared text)
  | other => .error (.pointerNotAString other)

/-- The array that a property with the given `items` holds: its items are a single reference. -/
def arrayShape (visible : Visible) (name : String) (items : Option Json) :
    Except ReflectionError Shape :=
  match items with
  | some (.object [("$ref", pointer)]) =>
    match resolve visible pointer with
    | .ok target => .ok (.array (.model target))
    | .error e => .error e
  | _ => .error (.itemsNotAReference name)

/-- What a property holds. Its `type` counts before its `$ref`. -/
def propertyShape (visible : Visible) (name : String) (info : Json) : Except ReflectionError Shape :=
  match info with
  | .object members =>
    match Json.find? "type" members with
    | some (.string "string") => .ok (.scalar .string)
    | some (.string "boolean") => .ok (.scalar .bool)
    | some (.string "number") => .ok (.scalar .int)
    | some (.string "integer") => .ok (.scalar .int)
    | some (.string "array") => arrayShape visible name (Json.find? "items" members)
    | some other => .error (.propertyType name other)
    | none =>
      match Json.find? "$ref" members with
      | some pointer =>
        match resolve visible pointer with
        | .ok target => .ok (.model target)
        | .error e => .error e
      | none => .error (.propertyUntyped name)
  | _ => .error (.propertyNotAnObject name)

/-- The names in a schema's `required`; there are none if it is absent. -/
def requiredNames (title : String) (members : List (String × Json)) :
    Except ReflectionError (List String) :=
  match Json.find? "required" members with
  | none => .ok []
  | some (.array items) =>
    match items.mapM Json.string? with
    | some names => .ok names
    | none => .error (.requiredNotStrings title)
  | some _ => .error (.requiredNotAList title)

def fields (visible : Visible) (required : List String) :
    List (String × Json) → Except ReflectionError (List Field)
  | [] => .ok []
  | (name, info) :: rest =>
    match propertyShape visible name info with
    | .error e => .error e
    | .ok shape =>
      match fields visible required rest with
      | .error e => .error e
      | .ok more => .ok (⟨name, shape, name ∈ required⟩ :: more)

def objectTitle (members : List (String × Json)) : Except ReflectionError String :=
  match Json.find? "title" members with
  | some (.string title) =>
    match Json.find? "type" members with
    | some (.string "object") => .ok title
    | some other => .error (.otherType title other)
    | none => .error (.untyped title)
  | _ => .error .untitled

def schemaFields (visible : Visible) (title : String) (members : List (String × Json)) :
    Except ReflectionError (List Field) :=
  match Json.find? "properties" members with
  | some (.object properties) =>
    match requiredNames title members with
    | .error e => .error e
    | .ok required => fields visible required properties
  | _ => .error (.noProperties title)

mutual
/-- The model of a schema inside of others whose definitions are `outer`. -/
def reflectIn (outer : Visible) : Json → Except ReflectionError Model
  | .object members =>
    match objectTitle members with
    | .error e => .error e
    | .ok title =>
      match definitionsMember outer title members with
      | .error e => .error e
      | .ok definitions =>
        match schemaFields (definitions ++ outer) title members with
        | .error e => .error e
        | .ok fields =>
          .ok ⟨title, (Json.find? "description" members).bind Json.string?, fields, definitions⟩
  | _ => .error .notAnObject

def definitionsMember (outer : Visible) (title : String) :
    List (String × Json) → Except ReflectionError (List Definition)
  | [] => .ok []
  | (key, .object members) :: rest =>
    if key = "definitions" then declare outer [] members else definitionsMember outer title rest
  | (key, _) :: rest =>
    if key = "definitions" then .error (.definitionsNotAnObject title)
    else definitionsMember outer title rest

/-- Reflects definitions in order, each seeing the earlier ones. -/
def declare (outer : Visible) (seen : List Definition) :
    List (String × Json) → Except ReflectionError (List Definition)
  | [] => .ok seen
  | (key, schema) :: rest =>
    match reflectIn (seen ++ outer) schema with
    | .error e => .error e
    | .ok model => declare outer (seen ++ [⟨key, model⟩]) rest
end

end Reflection

def Model.ofSchema (schema : Json) : Except ReflectionError Model := Reflection.reflectIn [] schema

end Schemata
