import Schemata.Envelope

/-!
Event buses, and the publisher that ties a model to its registered schema before it hands an event over.
-/
namespace Schemata

/-- A bus in memory: it keeps every envelope, unless it refuses them with a reason. -/
structure Bus where
  published : List Envelope
  refusal : Option String
deriving DecidableEq, Repr

namespace Bus

def empty : Bus := ⟨[], none⟩

def eventId (n : Nat) : String := "event-" ++ String.ofList (Text.padded 8 n)

/-- Adds an envelope to the log, under the identifier that is answered. -/
def publish (e : Envelope) (bus : Bus) : Except BusError String × Bus :=
  match bus.refusal with
  | some reason => (.error ⟨e.bus.getD "", reason⟩, bus)
  | none =>
    let id := eventId (bus.published.length + 1)
    (.ok id, { bus with published := bus.published ++ [{ e with id := some id }] })

def receiptToJson (eventId : String) : Json := .object [("EventId", .string eventId)]

def receiptOfWritten? (w : Written) : Option String := do
  let r ← Record.of? ["EventId"] w
  r.required "EventId" Written.string?

end Bus

structure Publisher where
  busName : String
  resources : List String
deriving DecidableEq, Repr

namespace Publisher

def defaultBus : String := "default"

def standardResources : List String := ["event-schemas"]

def standard : Publisher := ⟨defaultBus, standardResources⟩

variable {σ : Type} [Directory σ]

/-- The identity that a model is published under: the one it is registered as, or else that of a new
registration as `source.name`. -/
def identify (now : Instant) (source : String) (model : Model) (r : Registry) (s : σ) :
    Except SchemaError Identity × Registry × σ :=
  match r.identityOf model.handle with
  | .ok id => (.ok id, r, s)
  | .error (.unregistered _) =>
    match QualifiedName.make source model.name with
    | .error fault => (.error (.qualifiedName fault), r, s)
    | .ok name =>
      match r.register now name model s with
      | (.error e, r, s) => (.error e, r, s)
      | (.ok version, r, s) =>
        match version.identity with
        | .error fault => (.error (.identity fault), r, s)
        | .ok id => (.ok id, r, s)
  | .error e => (.error e, r, s)

def prepare (p : Publisher) (now : Instant) (source : String) (model : Model) (payload : Json)
    (resources : List String) (r : Registry) (s : σ) : Except SchemaError Envelope × Registry × σ :=
  match model.bind payload with
  | .error mismatch => (.error (.payload mismatch), r, s)
  | .ok value =>
    match identify now source model r s with
    | (.error e, r, s) => (.error e, r, s)
    | (.ok id, r, s) =>
      (.ok { Envelope.encode id (p.resources ++ resources) source value with
        bus := some p.busName, time := some now }, r, s)

def send (p : Publisher) (now : Instant) (source : String) (model : Model) (payload : Json)
    (resources : List String) (r : Registry) (s : σ) (bus : Bus) :
    Except SchemaError String × Registry × σ × Bus :=
  match p.prepare now source model payload resources r s with
  | (.error e, r, s) => (.error e, r, s, bus)
  | (.ok envelope, r, s) =>
    match bus.publish envelope with
    | (.error e, bus) => (.error (.bus e), r, s, bus)
    | (.ok id, bus) => (.ok id, r, s, bus)

end Publisher

end Schemata
