import Schemata.Proofs.Addressing
import Schemata.Proofs.Binding
import Schemata.Proofs.Envelope
import Schemata.Proofs.Model.Document
import Schemata.Proofs.Model.Storage

/-! Published events can be consumed: an envelope leads back to the model that its payload was bound to, in the
registry that sent it and in any that is loaded afterwards, whatever else has been registered in between. -/
namespace Schemata

open LawfulDirectory

theorem Model.modelOf_document {m : Model} (sound : m.Sound) :
    Registry.modelOf m.document = .ok m.reflected := by
  rw [Registry.modelOf, Model.value?_document sound.arrays]
  dsimp only
  rw [Model.ofSchema_toSchema sound]

section
variable {σ : Type} [Directory σ] {s s' : σ} {r r' : Registry}

namespace Publisher

variable {p : Publisher} {now : Instant} {source : String} {model : Model} {payload : Json}
  {resources : List String}

theorem prepare_ok {e : Envelope} (prepared : p.prepare now source model payload resources r s = (.ok e, r', s')) :
    ∃ id, identify now source model r s = (.ok id, r', s') ∧ model.bind payload = .ok e.payload ∧
      e.correlation = id.correlation ∧ e.time = some now := by
  unfold prepare at prepared
  split at prepared
  · cases prepared
  · rename_i value bound
    split at prepared
    · cases prepared
    · rename_i id r₁ s₁ identified
      cases prepared
      exact ⟨id, identified, bound, rfl, rfl⟩

theorem send_ok {bus bus' : Bus} {receipt : String}
    (sent : p.send now source model payload resources r s bus = (.ok receipt, r', s', bus')) :
    ∃ e, p.prepare now source model payload resources r s = (.ok e, r', s') ∧
      bus'.published = bus.published ++ [{ e with id := some receipt }] := by
  unfold send at sent
  split at sent
  · cases sent
  · rename_i e r₁ s₁ prepared
    cases refused : bus.refusal with
    | some reason => simp [Bus.publish, refused] at sent
    | none =>
      simp only [Bus.publish, refused, Prod.mk.injEq, Except.ok.injEq] at sent
      obtain ⟨rfl, rfl, rfl, rfl⟩ := sent
      exact ⟨e, prepared, rfl⟩

end Publisher

theorem Envelope.open?_ok {e : Envelope} {v : Version} {id : Identity} {document : Document} {model : Model}
    {value : Json} (identity : v.identity = .ok id) (correlation : e.correlation = id.correlation)
    (own : v.registry = r.name) (asked : r.document v.name (some v.id.text) s = (.ok document, r', s'))
    (describes : Registry.modelOf document = .ok model) (binds : model.bind e.payload = .ok value)
    (defaultRegistry : String) : e.open? defaultRegistry r s = (.ok (model, value), r', s') := by
  obtain ⟨rfl, proper⟩ := Identity.make_eq_ok_iff.mp identity
  have identity' : e.identity defaultRegistry = .ok ⟨v.registry, v.name, v.id.text⟩ := by
    rw [Envelope.identity, correlation, Identity.parse?_correlation proper]
  have found : r.model v.name (some v.id.text) s = (.ok model, r', s') := by
    rw [Registry.model, asked]
    dsimp only
    rw [describes]
  exact Envelope.open?_of_model identity' own found binds

end

namespace Session

section
variable {σ : Type} [Directory σ] [LawfulDirectory σ] {w : Session σ} (orderly : w.Orderly) (small : w.shelf.Roomy)
  {v : Version}
include orderly small

theorem Orderly.document_held {handle : Handle} (held : w.registry.models.get? handle = some v) :
    ∃ r' s', w.registry.document v.name (some v.id.text) w.directory = (.ok v.document, r', s') := by
  have relies := orderly.coherent.models handle v held
  have onShelf := relies.onShelf
  rw [Version.OnShelf, relies.own] at onShelf
  exact Registry.document_ok orderly.kept rfl (Nat.lt_succ_of_lt (small _ _)) orderly.coherent relies.listed onShelf
    relies.cached

theorem Orderly.document_loaded (own : v.registry = w.registry.name) (onShelf : v.OnShelf w.shelf) {now : Instant}
    {fresh : Registry} {s₁ : σ}
    (loaded : Registry.loaded now w.registry.name none w.directory = (.ok fresh, s₁)) :
    fresh.name = w.registry.name ∧
      ∃ r' s', fresh.document v.name (some v.id.text) s₁ = (.ok v.document, r', s') := by
  have coherent := Registry.coherent_new w.registry.name none w.shelf
  obtain ⟨answer, r', s', listing, kept, view, ⟨⟨e, rfl⟩, -⟩ | ⟨rfl, listed, rfl, still, whole⟩⟩ :=
    @Registry.load_cases _ _ w.directory _ _ now (Registry.new w.registry.name none) orderly.kept rfl
  · rw [Registry.loaded, listing] at loaded
    cases loaded
  · rw [Registry.loaded, listing] at loaded
    cases loaded
    rw [Version.OnShelf, own] at onShelf
    have filled : w.shelf w.registry.name v.name ≠ Table.empty := by
      intro bare
      rw [bare] at onShelf
      cases onShelf
    refine ⟨rfl, ?_⟩
    exact Registry.document_ok kept view (Nat.lt_succ_of_lt (small _ _)) (coherent.forget still)
      (whole rfl v.name filled) onShelf fun h there => by cases there

/-- An envelope of a version is opened by the registry if a model is registered as the version, and by every
other registry of its name that is loaded without a beginning. -/
theorem Orderly.opens {e : Envelope} {id : Identity} {model : Model} {value : Json} (made : v.identity = .ok id)
    (correlation : e.correlation = id.correlation) (own : v.registry = w.registry.name)
    (onShelf : v.OnShelf w.shelf) (describes : Registry.modelOf v.document = .ok model)
    (binds : model.bind e.payload = .ok value) (defaultRegistry : String) :
    (∀ handle, w.registry.models.get? handle = some v →
      (e.open? defaultRegistry w.registry w.directory).1 = .ok (model, value)) ∧
    ∀ now fresh s₁, Registry.loaded now w.registry.name none w.directory = (.ok fresh, s₁) →
      (e.open? defaultRegistry fresh s₁).1 = .ok (model, value) := by
  constructor
  · intro handle held
    obtain ⟨r', s', asked⟩ := orderly.document_held small held
    rw [Envelope.open?_ok made correlation own asked describes binds]
  · intro now fresh s₁ loaded
    obtain ⟨sameName, r', s', asked⟩ := orderly.document_loaded small own onShelf loaded
    rw [Envelope.open?_ok made correlation (own.trans sameName.symm) asked describes binds]

end

section
variable {s : Store} (blank : s.Blank) (registry : String) (start : Option String)
include blank

/-- What a registry in a session holds once it has an identity for a model: a version with that identity, on
its shelf with the model's own document. -/
theorem identified_version {before : List Step} {now : Clock} {source : String} {model : Model} {id : Identity}
    {r' : Registry} {s' : Store} (within : (begin registry start s).RoomyFor shelf before)
    (small : ((begin registry start s).run before).1.shelf.Roomy)
    (collisionFree : Checksum.CollisionFree (before.flatMap Step.contents ++ [model.document.text]))
    (identified : Publisher.identify now.val source model ((begin registry start s).run before).1.registry
      ((begin registry start s).run before).1.directory = (.ok id, r', s')) :
    Session.Orderly ⟨r', s'⟩ ∧ r'.name = registry ∧ ∃ v, r'.models.get? model.handle = some v ∧
      v.identity = .ok id ∧ v.registry = registry ∧ v.OnShelf (catalog s').shelf ∧ v.document = model.document := by
  obtain ⟨reaches, -⟩ := run_reaches (orderly_begin blank registry start) within
  obtain ⟨answer, r₁, s₁, done, leads, found⟩ := Step.identify_leads reaches.orderly small now source model
  rw [identified] at done
  cases done
  obtain ⟨v, held, made⟩ := found id rfl
  have relies := leads.orderly.coherent.models _ v held
  have sameName : r'.name = registry := leads.sameName.trans reaches.sameName
  have given := origin_leads blank registry start within leads relies.onShelf
  exact ⟨leads.orderly, sameName, v, held, made, relies.own.trans sameName, relies.onShelf,
    collisionFree.document_eq given relies.checksum⟩

/-- An event of a sound model that has been sent can be consumed, also after it has been written and read back:
its envelope gives the model, up to definitions inside of its fields, and the bound payload. At the end of the
session the registry that sent it opens it unless it has registered the model anew, and a registry of that name
that is loaded without a beginning opens it in any case. -/
theorem sent_event_opens {before later : List Step} {publisher : Publisher} {now : Clock} {source : String}
    {model : Model} {payload : Json} {resources : List String} (sound : model.Sound)
    (within : (begin registry start s).RoomyFor shelf
      (before ++ .send publisher now source model payload resources :: later))
    (collisionFree : Checksum.CollisionFree
      ((before ++ Step.send publisher now source model payload resources :: later).flatMap Step.contents))
    {bus bus' : Bus} {receipt : String} {r' : Registry} {s' : Store}
    (sent : publisher.send now.val source model payload resources
      ((begin registry start s).run before).1.registry ((begin registry start s).run before).1.directory bus =
        (.ok receipt, r', s', bus')) :
    ∃ e value back, bus'.published = bus.published ++ [e] ∧ model.bind payload = .ok value ∧
      back.name = model.name ∧ back.description = model.description ∧
      back.fields = Field.eraseAll model.fields ∧
      Envelope.ofWritten? (.ofJson e.toJson) = some e ∧
      (Written.ofText? e.toJson.text).bind Envelope.ofWritten? =
        (if (Written.ofJson value).nesting < Json.nestingLimit then some e else none) ∧
      ∀ w, (Session.run ⟨r', s'⟩ later).1 = w → ∀ defaultRegistry,
        (w.registry.models.get? model.handle = r'.models.get? model.handle →
          (e.open? defaultRegistry w.registry w.directory).1 = .ok (back, value)) ∧
        ∀ now' fresh s₁, Registry.loaded now' registry none w.directory = (.ok fresh, s₁) →
          (e.open? defaultRegistry fresh s₁).1 = .ok (back, value) := by
  obtain ⟨first, small, last⟩ := within.append
  obtain ⟨e, prepared, published⟩ := Publisher.send_ok sent
  obtain ⟨id, identified, bound, correlation, time⟩ := Publisher.prepare_ok prepared
  have stepped : ((Step.send publisher now source model payload resources).run
      ((begin registry start s).run before).1).1 = ⟨r', s'⟩ := by
    rw [Step.run, prepared, Step.operate]
  rw [stepped] at last
  obtain ⟨orderly, sameName, v, held, made, own, onShelf, document⟩ :=
    identified_version blank registry start first small collisionFree.up_to identified
  have plain := Model.bind_plain bound
  have proper : ∀ t, e.time = some t → t.Proper := by
    rw [time]
    rintro _ ⟨rfl⟩
    exact now.property
  have describes : Registry.modelOf v.document = .ok model.reflected := by
    rw [document]
    exact Model.modelOf_document sound
  have binds : model.reflected.bind e.payload = .ok e.payload := by
    rw [Model.bind_reflected]
    exact Model.bind_again sound.distinct bound
  refine ⟨_, e.payload, model.reflected, published, bound, rfl, rfl, rfl,
    Envelope.ofWritten?_toJson proper plain.unrepeated, Envelope.ofWritten?_text proper plain, ?_⟩
  rintro w rfl defaultRegistry
  obtain ⟨reaches, -⟩ := run_reaches orderly last
  have sameName' := reaches.sameName.trans sameName
  obtain ⟨same, anew⟩ := reaches.orderly.opens last.last made correlation (own.trans sameName'.symm)
    (reaches.grown _ _ _ _ onShelf) describes binds defaultRegistry
  constructor
  · intro kept
    exact same model.handle (kept.trans held)
  · intro now' fresh s₁ loaded
    rw [← sameName'] at loaded
    exact anew now' fresh s₁ loaded

end

def sampleModel : Model :=
  (Model.named "Order").addField "items" (.array (.model ((Model.named "Item").addField "id" (.scalar .int) true))) true

def samplePayload : Json := .object [
  ("items", .array [.object [("id", .number (.whole ⟨7, by decide⟩)), ("label", .bool true)]]), ("note", .null)]

def sampleBefore : List Step := [.create sampleClock ⟨"Shop", "shop.Item", "changed", .jsonSchemaDraft4, none⟩]

def sampleSent : Except SchemaError String × Registry × Store × Bus :=
  let w := ((begin "Shop" none sampleDirectory).run sampleBefore).1
  Publisher.standard.send sampleClock.val "shop" sampleModel samplePayload [] w.registry w.directory .empty

theorem sampleSent_opens : sampleSent.1.toOption = some "event-00000001" ∧
    ∃ e value back, sampleSent.2.2.2.published = [e] ∧ sampleModel.bind samplePayload = .ok value ∧
      (e.open? "Other" sampleSent.2.1 sampleSent.2.2.1).1 = .ok (back, value) ∧
      ∃ fresh s₁, Registry.loaded sampleClock.val "Shop" none sampleSent.2.2.1 = (.ok fresh, s₁) ∧
        (e.open? "Other" fresh s₁).1 = .ok (back, value) := by
  have blank : sampleDirectory.Blank := rfl
  have sound : sampleModel.Sound := by decide +kernel
  have within : (begin "Shop" none sampleDirectory).RoomyFor shelf
      (sampleBefore ++ [.send .standard sampleClock "shop" sampleModel samplePayload []]) :=
    within_begin blank "Shop" none (by decide)
  have collisionFree : Checksum.CollisionFree
      ((sampleBefore ++ [Step.send .standard sampleClock "shop" sampleModel samplePayload []]).flatMap
        Step.contents) := by decide +kernel
  have answered : sampleSent.1.toOption = some "event-00000001" ∧
      (Directory.listSchemas sampleClock.val ⟨"Shop", none, none⟩ sampleSent.2.2.1).1.toOption.map (·.next) =
        some none := by decide +kernel
  refine ⟨answered.1, ?_⟩
  rcases sent : sampleSent with ⟨_ | receipt, r', s', bus'⟩ <;> rw [sent] at answered
  · cases answered.1
  rw [sampleSent] at sent
  obtain ⟨e, value, back, published, bound, -, -, -, -, -, opens⟩ :=
    sent_event_opens blank "Shop" none sound within collisionFree sent
  obtain ⟨same, anew⟩ := opens _ rfl "Other"
  obtain ⟨fresh, s₁, loaded⟩ : ∃ fresh s₁, Registry.loaded sampleClock.val "Shop" none s' = (.ok fresh, s₁) := by
    rcases listed : Directory.listSchemas sampleClock.val ⟨"Shop", none, none⟩ s' with ⟨_ | page, s₁⟩ <;>
      rw [listed] at answered
    · cases answered.2
    · have last : page.next = none := Option.some.inj answered.2
      have drained := @Registry.drainNames_page _ _ s' _ _ Table.empty _ _ listed
      rw [last] at drained
      simp only [Registry.loaded, Registry.load, Registry.new, Option.bind_none, drained]
      exact ⟨_, s₁, rfl⟩
  exact ⟨e, value, back, published, bound, same rfl, fresh, s₁, loaded, anew _ fresh s₁ loaded⟩

end Session

end Schemata
