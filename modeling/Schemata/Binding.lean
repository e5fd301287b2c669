import Schemata.Json.Printer
import Schemata.Model.Schema

/-!
Binding a payload to a model: the payload is checked field by field, and what is declared is kept.

Undeclared members are dropped, and so are optional ones that are `null`. The first mismatch in the order of
the fields, depth first, ends the check.
-/
namespace Schemata

namespace Binding

inductive Segment where
  | field (name : String)
  | item (index : Nat)
deriving DecidableEq, Repr

/-- A place in a payload, the innermost step first. -/
abbrev Path := List Segment

/-- Names joined by points, each index in brackets; `$` for the payload itself. -/
def pathText (path : Path) : String :=
  let text := path.foldr (fun step text =>
    match step with
    | .field name => if text = "" then name else text ++ "." ++ name
    | .item index => text ++ "[" ++ String.ofList (Text.decimal index) ++ "]") ""
  if text = "" then "$" else text

inductive Reason where
  | notAnObject (model : String)
  | missing
  | notAnArray
  | notAnInteger (n : Number)
  | otherKind (expected : Scalar) (found : Json)
deriving Repr

def Reason.message : Reason → String
  | .notAnObject model => "expected an object for " ++ model
  | .missing => "field required"
  | .notAnArray => "expected an array"
  | .notAnInteger n => (Json.number n).text ++ " is not an integer"
  | .otherKind expected found => "expected " ++ expected.keyword ++ ", got " ++ found.text

structure Mismatch where
  path : Path
  reason : Reason
deriving Repr

def Mismatch.message (m : Mismatch) : String :=
  "Payload does not match schema at " ++ pathText m.path ++ ": " ++ m.reason.message

/-- The whole number that a double between `-2 ^ 63` and `2 ^ 63` is taken for; the upper end is taken for
the greatest signed word. -/
def wholeOf? (d : Double) : Option Whole :=
  match d.toInt? with
  | some n =>
    if h : -9223372036854775808 ≤ n ∧ n ≤ 9223372036854775808 then
      some ⟨min n 9223372036854775807, by omega⟩
    else none
  | none => none

def bindScalar (path : Path) (kind : Scalar) (v : Json) : Except Mismatch Json :=
  match kind, v with
  | .string, .string s => .ok (.string s)
  | .bool, .bool b => .ok (.bool b)
  | .int, .number (.whole n) => .ok (.number (.whole n))
  | .int, .number (.double d) =>
    match wholeOf? d with
    | some n => .ok (.number (.whole n))
    | none => .error ⟨path, .notAnInteger (.double d)⟩
  | kind, v => .error ⟨path, .otherKind kind v⟩

def bindItems (bindItem : Path → Json → Except Mismatch Json) (path : Path) :
    (index : Nat) → List Json → Except Mismatch (List Json)
  | _, [] => .ok []
  | index, v :: rest =>
    match bindItem (.item index :: path) v with
    | .error e => .error e
    | .ok bound =>
      match bindItems bindItem path (index + 1) rest with
      | .error e => .error e
      | .ok more => .ok (bound :: more)

end Binding

open Binding

mutual
def Model.bindAt (path : Path) : Model → Json → Except Mismatch Json
  | ⟨name, _, fields, _⟩, v =>
    match v with
    | .object members =>
      match Field.bindAll path members [] fields with
      | .error e => .error e
      | .ok bound => .ok (.object bound)
    | _ => .error ⟨path, .notAnObject name⟩

/-- Binds one field after the other; `bound` holds the members so far. -/
def Field.bindAll (path : Path) (members bound : List (String × Json)) :
    List Field → Except Mismatch (List (String × Json))
  | [] => .ok bound
  | ⟨name, shape, required⟩ :: rest =>
    match Json.find? name members with
    | none | some .null =>
      if required then .error ⟨.field name :: path, .missing⟩
      else Field.bindAll path members bound rest
    | some raw =>
      match shape.bindAt (.field name :: path) raw with
      | .error e => .error e
      | .ok v => Field.bindAll path members (Json.put name v bound) rest

def Shape.bindAt (path : Path) : Shape → Json → Except Mismatch Json
  | .scalar kind, v => bindScalar path kind v
  | .model target, v => target.bindAt path v
  | .array item, v =>
    match v with
    | .array items =>
      match bindItems (fun path v => item.bindAt path v) path 0 items with
      | .error e => .error e
      | .ok bound => .ok (.array bound)
    | _ => .error ⟨path, .notAnArray⟩
end

def Model.bind (m : Model) (payload : Json) : Except Mismatch Json := m.bindAt [] payload

end Schemata
