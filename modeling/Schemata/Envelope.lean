import Schemata.Registry

/-!
Envelopes: a payload on its way over an event bus, with the correlation of the schema that it was made
from. The consumer finds the schema again from the correlation and binds the payload to it.
-/
namespace Schemata

namespace Identity

/-- What a correlation text was read as; the failure carries the text. -/
def orMalformed (text : String) : Option Identity → Except SchemaError Identity
  | some id => .ok id
  | none => .error (.correlation text)

/-- The identity that a correlation text spells, with its registry or in the default one. -/
def decode (defaultRegistry text : String) : Except SchemaError Identity :=
  orMalformed text (parse? defaultRegistry text)

def ofText (text : String) : Except SchemaError Identity := orMalformed text (ofText? text)

end Identity

structure Envelope where
  id : Option String
  source : String
  /-- The text of the schema's identity. -/
  correlation : String
  resources : List String
  payload : Json
  time : Option Instant
  account : Option String
  region : Option String
  bus : Option String
deriving DecidableEq, Repr

namespace Envelope

def toJson (e : Envelope) : Json :=
  .object (Json.optional "id" e.id ++
    [("source", .string e.source), ("detail-type", .string e.correlation),
     ("resources", .array (e.resources.map .string)), ("detail", e.payload)] ++
    Json.optional "time" (e.time.map Instant.text) ++ Json.optional "account" e.account ++
    Json.optional "region" e.region ++ Json.optional "event-bus-name" e.bus)

def ofWritten? (w : Written) : Option Envelope := do
  let r ← Record.of? ["id", "source", "detail-type", "resources", "detail", "time", "account", "region",
    "event-bus-name"] w
  let id ← r.optional "id" Written.string?
  let source ← r.required "source" Written.string?
  let correlation ← r.required "detail-type" Written.string?
  let resources ← r.defaulted "resources" [] (Written.list? Written.string?)
  let payload ← r.required "detail" Written.value?
  let time ← r.optional "time" Instant.ofWritten?
  let account ← r.optional "account" Written.string?
  let region ← r.optional "region" Written.string?
  let bus ← r.optional "event-bus-name" Written.string?
  return { id, source, correlation, resources, payload, time, account, region, bus }

def encode (identity : Identity) (resources : List String) (source : String) (payload : Json) :
    Envelope where
  id := none
  source
  correlation := identity.correlation
  resources
  payload
  time := none
  account := none
  region := none
  bus := none

def identity (defaultRegistry : String) (e : Envelope) : Except SchemaError Identity :=
  match Identity.parse? defaultRegistry e.correlation with
  | some identity => .ok identity
  | none => .error (.correlation e.correlation)

/-- Finds the envelope's schema in a registry, and binds the payload to the model that it describes. -/
def open? [Directory σ] (defaultRegistry : String) (e : Envelope) (r : Registry) (s : σ) :
    Except SchemaError (Model × Json) × Registry × σ :=
  match e.identity defaultRegistry with
  | .error e => (.error e, r, s)
  | .ok id =>
    if id.registry ≠ r.name then
      (.error (.notFound (id.registry ++ "/" ++ id.schema) id.version), r, s)
    else
      match r.model id.schema (some id.version) s with
      | (.error e, r, s) => (.error e, r, s)
      | (.ok model, r, s) =>
        match model.bind e.payload with
        | .error mismatch => (.error (.payload mismatch), r, s)
        | .ok value => (.ok (model, value), r, s)

end Envelope

end Schemata
