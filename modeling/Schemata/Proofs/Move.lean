import Schemata.Proofs.Session

/-! What the steps of a session come down to. Asking for a document, reflecting it and receiving an event all
ask for one history; sending an event registers its model, if that has to be done. -/
namespace Schemata

/-- An operation of the registry, or a call that others make on its directory. -/
inductive Move where
  | stay
  | load (now : Clock)
  | ask (name : String)
  | register (now : Clock) (name : QualifiedName) (model : Model)
  | listSchemas (now : Clock) (request : ListRequest)
  | listVersions (registry name : String) (token : Option String)
  | describe (registry name : String) (version : Option String)
  | create (now : Clock) (request : PutRequest)
  | update (now : Clock) (request : PutRequest)

def Session.of (state : Registry × σ) : Session σ := ⟨state.1, state.2⟩

namespace Move

def contents : Move → List String
  | register _ _ model => [model.document.text]
  | create _ request => [request.content]
  | update _ request => [request.content]
  | _ => []

variable {σ : Type} [Directory σ]

def run (w : Session σ) : Move → Session σ
  | stay => w
  | load now => .of (w.registry.load now.val w.directory).2
  | ask name => .of (w.registry.history name w.directory).2
  | register now name model => .of (w.registry.register now.val name model w.directory).2
  | listSchemas now request => ⟨w.registry, (Directory.listSchemas now.val request w.directory).2⟩
  | listVersions registry name token => ⟨w.registry, (Directory.listVersions registry name token w.directory).2⟩
  | describe registry name version => ⟨w.registry, (Directory.describe registry name version w.directory).2⟩
  | create now request => ⟨w.registry, (Directory.create now.val request w.directory).2⟩
  | update now request => ⟨w.registry, (Directory.update now.val request w.directory).2⟩

end Move

namespace Step

variable {σ : Type} [Directory σ] {w : Session σ}

/-- The move of an event that is sent: its model is registered, if its payload is one of the model and the model
has not been registered. -/
def sending (w : Session σ) (now : Clock) (source : String) (model : Model) (payload : Json) : Move :=
  match model.bind payload, w.registry.identityOf model.handle, QualifiedName.make source model.name with
  | .ok _, .error (.unregistered _), .ok name => .register now name model
  | _, _, _ => .stay

/-- The move of an event that is received: the history of its schema is asked for, if it is of this registry. -/
def receiving (w : Session σ) (defaultRegistry : String) (e : Envelope) : Move :=
  match e.identity defaultRegistry with
  | .error _ => .stay
  | .ok id => if id.registry ≠ w.registry.name then .stay else .ask id.schema

def move (w : Session σ) : Step → Move
  | load now => .load now
  | history name => .ask name
  | document name _ => .ask name
  | reflect name _ => .ask name
  | register now name model => .register now name model
  | send _ now source model payload _ => sending w now source model payload
  | receive defaultRegistry e => receiving w defaultRegistry e
  | listSchemas now request => .listSchemas now request
  | listVersions registry name token => .listVersions registry name token
  | describe registry name version => .describe registry name version
  | create now request => .create now request
  | update now request => .update now request

theorem document_move (name : String) (version : Option String) (r : Registry) (s : σ) :
    (r.document name version s).2 = (r.history name s).2 := by
  unfold Registry.document
  rcases r.history name s with ⟨_ | h, r', s'⟩
  · rfl
  · dsimp only
    split <;> rfl

theorem model_move (name : String) (version : Option String) (r : Registry) (s : σ) :
    (r.model name version s).2 = (r.history name s).2 := by
  rw [← document_move name version]
  unfold Registry.model
  rcases r.document name version s with ⟨_ | document, r', s'⟩ <;> rfl

theorem identify_move (now : Clock) (source : String) (model : Model) (payload value : Json) (w : Session σ)
    (bound : model.bind payload = .ok value) :
    .of (Publisher.identify now.val source model w.registry w.directory).2 =
      (sending w now source model payload).run w := by
  unfold Publisher.identify sending
  rw [bound]
  cases w.registry.identityOf model.handle with
  | ok id => rfl
  | error e =>
    cases e with
    | unregistered handle =>
      cases QualifiedName.make source model.name with
      | error fault => rfl
      | ok name =>
        dsimp only [Move.run]
        rcases w.registry.register now.val name model w.directory with ⟨_ | v, r', s'⟩
        · rfl
        · dsimp only
          split <;> rfl
    | _ => rfl

theorem prepare_move (publisher : Publisher) (now : Clock) (source : String) (model : Model) (payload : Json)
    (resources : List String) (w : Session σ) :
    .of (publisher.prepare now.val source model payload resources w.registry w.directory).2 =
      (sending w now source model payload).run w := by
  unfold Publisher.prepare
  cases bound : model.bind payload with
  | error mismatch =>
    rw [sending, bound]
    rfl
  | ok value =>
    rw [← identify_move now source model payload value w bound]
    rcases Publisher.identify now.val source model w.registry w.directory with ⟨_ | id, r', s'⟩ <;> rfl

theorem open_move (defaultRegistry : String) (e : Envelope) (w : Session σ) :
    .of (e.open? defaultRegistry w.registry w.directory).2 = (receiving w defaultRegistry e).run w := by
  unfold Envelope.open? receiving
  cases e.identity defaultRegistry with
  | error _ => rfl
  | ok id =>
    dsimp only
    split
    · rfl
    · rw [Move.run, ← model_move id.schema (some id.version)]
      rcases w.registry.model id.schema (some id.version) w.directory with ⟨_ | model, r', s'⟩
      · rfl
      · dsimp only
        split <;> rfl

/-- A step leads where its move leads. -/
theorem run_move (w : Session σ) (step : Step) : (step.run w).1 = (step.move w).run w := by
  cases step with
  | document name version => exact congrArg Session.of (document_move name version w.registry w.directory)
  | reflect name version => exact congrArg Session.of (model_move name version w.registry w.directory)
  | send publisher now source model payload resources =>
    exact prepare_move publisher now source model payload resources w
  | receive defaultRegistry e => exact open_move defaultRegistry e w
  | _ => rfl

omit [Directory σ] in
theorem contents_move (w : Session σ) (step : Step) : (step.move w).contents ⊆ step.contents := by
  cases step with
  | send publisher now source model payload resources =>
    simp only [move, sending]
    split <;> simp [Move.contents, contents]
  | receive defaultRegistry e =>
    simp only [move, receiving]
    split
    · simp [Move.contents]
    · split <;> simp [Move.contents]
  | _ => exact List.Subset.refl _

end Step

end Schemata
