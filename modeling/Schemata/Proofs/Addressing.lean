import Schemata.Proofs.Directory.Store
import Schemata.Proofs.Session

/-! An identity addresses one document for good: a registered model is found under the version that it was
registered as, and two sightings of one version never differ. -/
namespace Schemata

open LawfulDirectory

/-- No two of some texts have the same checksum. -/
def Checksum.CollisionFree (texts : List String) : Prop :=
  ∀ a ∈ texts, ∀ b ∈ texts, Checksum.ofText a = Checksum.ofText b → a = b

instance (texts : List String) : Decidable (Checksum.CollisionFree texts) :=
  inferInstanceAs (Decidable (∀ a ∈ texts, ∀ b ∈ texts, Checksum.ofText a = Checksum.ofText b → a = b))

theorem Checksum.CollisionFree.up_to {before later : List Step} {step : Step}
    (collisionFree : CollisionFree ((before ++ step :: later).flatMap Step.contents)) :
    CollisionFree (before.flatMap Step.contents ++ step.contents) := by
  rw [List.flatMap_append, List.flatMap_cons, ← List.append_assoc] at collisionFree
  intro a first b second
  exact collisionFree a (List.mem_append_left _ first) b (List.mem_append_left _ second)

/-- A document is told by its checksum from what has been given before it. -/
theorem Checksum.CollisionFree.document_eq {texts : List String} {a b : Document}
    (collisionFree : CollisionFree (texts ++ [b.text])) (given : a.text ∈ texts ++ [b.text])
    (same : a.checksum = b.checksum) : a = b := by
  have own : b.text ∈ texts ++ [b.text] := List.mem_append_right _ (List.mem_singleton.mpr rfl)
  have equal : a.text = b.text := collisionFree _ given _ own same
  exact congrArg Document.mk equal

namespace Session

/-- A session that begins with a registry that has not been loaded. -/
def begin (registry : String) (start : Option String) (s : Store) : Session Store :=
  ⟨Registry.new registry start, s⟩

section
variable {s : Store} (blank : s.Blank) (registry : String) (start : Option String)
include blank

theorem shelf_begin (registry' name : String) : (begin registry start s).shelf registry' name = Table.empty := by
  rw [Session.shelf, begin, s.shelf_catalog]
  exact blank.shelf registry' name

theorem orderly_begin : (begin registry start s).Orderly where
  kept := blank.kept
  numbered registry' name := by
    rw [shelf_begin blank]
    exact .empty
  coherent := Registry.coherent_new registry start _

theorem within_begin {steps : List Step} (few : steps.length < 18446744073709551615) :
    (begin registry start s).RoomyFor shelf steps := by
  have sizes (registry' name : String) : ((begin registry start s).shelf registry' name).size ≤ 0 := by
    rw [shelf_begin blank]
    exact Nat.le_refl 0
  have grows (w : Session Store) (step : Step) (orderly : w.Orderly) (small : w.shelf.Roomy) :
      (step.run w).1.Orderly ∧ ∀ registry name,
        ((step.run w).1.shelf registry name).size ≤ (w.shelf registry name).size + 1 := by
    obtain ⟨leads, -⟩ := step.run_sound orderly small
    exact ⟨leads.orderly, leads.adds.size_le orderly.numbered⟩
  exact roomyFor_of_length Orderly grows (orderly_begin blank registry start) sizes (by rwa [Nat.zero_add])

theorem origin_run {steps : List Step} (within : (begin registry start s).RoomyFor shelf steps)
    {registry' name : String} {id : VersionId} {text : String}
    (found : (((begin registry start s).run steps).1.shelf registry' name).get? id = some (some text)) :
    text ∈ steps.flatMap Step.contents := by
  obtain ⟨reaches, -⟩ := run_reaches (orderly_begin blank registry start) within
  rcases reaches.origin registry' name id _ found with before | ⟨given, among, same⟩
  · rw [shelf_begin blank] at before
    cases before
  · rw [Option.some.inj same]
    exact among

theorem origin_leads {before : List Step} {contents : List String} {w : Session Store}
    (within : (begin registry start s).RoomyFor shelf before)
    (leads : ((begin registry start s).run before).1.Leads contents w) {registry' name : String} {id : VersionId}
    {text : String} (found : (w.shelf registry' name).get? id = some (some text)) :
    text ∈ before.flatMap Step.contents ++ contents := by
  rw [List.mem_append]
  rcases leads.adds.origin found with old | ⟨given, new, same⟩
  · exact .inl (origin_run blank registry start within old)
  · rw [Option.some.inj same]
    exact .inr new

/-- What a registration in a session answers is the version with the model's own document. -/
theorem registered_document {before : List Step} {now : Clock} {name : QualifiedName} {model : Model}
    (within : (begin registry start s).RoomyFor shelf before)
    (small : ((begin registry start s).run before).1.shelf.Roomy)
    (collisionFree : Checksum.CollisionFree (before.flatMap Step.contents ++ [model.document.text]))
    {v : Version} {r' : Registry} {s' : Store}
    (answered : ((begin registry start s).run before).1.registry.register now.val name model
      ((begin registry start s).run before).1.directory = (.ok v, r', s')) :
    Session.Orderly ⟨r', s'⟩ ∧ r'.name = registry ∧ r'.Registered (catalog s').shelf name.text model v ∧
      v.document = model.document := by
  obtain ⟨reaches, -⟩ := run_reaches (orderly_begin blank registry start) within
  obtain ⟨answer, r₁, s₁, registered, leads, found⟩ :=
    Step.register_leads reaches.orderly small now name model
  rw [answered] at registered
  cases registered
  have done := found v rfl
  have sameName : r'.name = registry := leads.sameName.trans reaches.sameName
  have there := ((leads.orderly.sorted _ _).last?_eq_some_iff.mp done.greatest).1
  have given := origin_leads blank registry start within leads there
  exact ⟨leads.orderly, sameName, done, collisionFree.document_eq given done.checksum⟩

/-- A registration that is answered with a version has stored the document of its model under it, and that
version is the default one of the registry's history. Whatever is seen under an address in a session, by its
registry or by others, is one document. -/
theorem address_one_document {steps : List Step} (within : (begin registry start s).RoomyFor shelf steps)
    (collisionFree : Checksum.CollisionFree (steps.flatMap Step.contents)) :
    (∀ before now name model later, steps = before ++ .register now name model :: later →
      ∀ v r' s', ((begin registry start s).run before).1.registry.register now.val name model
          ((begin registry start s).run before).1.directory = (.ok v, r', s') →
        v.registry = registry ∧ v.name = name.text ∧ v.document.text = model.document.text ∧
        s'.content registry name.text v.id.text = some model.document.text ∧
        ∃ h, r'.histories.get? name.text = some h ∧ h.get? none = some v ∧ h.defaultId? = some v.id ∧
          ∀ id w, h.get? (some id.text) = some w → id = v.id ∨ Key.order id v.id = .lt) ∧
    ∀ x ∈ ((begin registry start s).run steps).2, ∀ y ∈ ((begin registry start s).run steps).2,
      x.registry = y.registry → x.name = y.name → x.id = y.id → x.text = y.text := by
  constructor
  · rintro before now name model later rfl v r' s' answered
    obtain ⟨first, small, -⟩ := within.append
    obtain ⟨orderly, sameName, done, document⟩ :=
      registered_document blank registry start first small collisionFree.up_to answered
    have there := ((orderly.sorted _ _).last?_eq_some_iff.mp done.greatest).1
    obtain ⟨h, recorded, last⟩ := done.default
    have sorted := (orderly.coherent.histories _ h recorded).sorted
    refine ⟨done.own.trans sameName, done.named, congrArg _ document, ?_, h, recorded, ?_, ?_, ?_⟩
    · rw [Store.content_eq, Shelves.content, ← s'.shelf_catalog, ← sameName]
      change (((catalog s').shelf r'.name name.text).get? v.id).join = _
      rw [show ((catalog s').shelf r'.name name.text).get? v.id = some (some v.document.text) from there, document]
      rfl
    · simp [History.get?, last]
    · simp [History.defaultId?, last]
    · intro id w found
      exact (sorted.last?_eq_some_iff.mp last).2 id w found
  · intro x first y second sameRegistry sameName sameId
    obtain ⟨-, seen⟩ := run_reaches (orderly_begin blank registry start) within
    have shelved := seen x first
    have shelved' := seen y second
    rw [Sighting.OnShelf, sameRegistry, sameName, sameId, shelved'] at shelved
    exact (Option.some.inj (Option.some.inj shelved)).symm

end

def sampleClock : Clock := ⟨⟨0, 0⟩, Instant.proper_epoch⟩

def sampleDirectory : Store := .memory (.empty 10)

def sampleRun : List Step :=
  let order := (Model.named "Order").addField "id" (.scalar .int) true
  [.register sampleClock ⟨"shop", "Order"⟩ order,
   .update sampleClock ⟨"Shop", "shop.Order", "changed", .jsonSchemaDraft4, none⟩,
   .describe "Shop" "shop.Order" (some "1"),
   .describe "Shop" "shop.Order" none]

theorem sampleRun_one_document : sampleDirectory.Blank ∧ (begin "Shop" none sampleDirectory).RoomyFor shelf sampleRun ∧
    Checksum.CollisionFree (sampleRun.flatMap Step.contents) ∧
    ((begin "Shop" none sampleDirectory).run sampleRun).2.map (·.id.text) = ["1", "2", "1", "2"] ∧
    ∀ x ∈ ((begin "Shop" none sampleDirectory).run sampleRun).2,
      ∀ y ∈ ((begin "Shop" none sampleDirectory).run sampleRun).2,
        x.registry = y.registry → x.name = y.name → x.id = y.id → x.text = y.text := by
  have blank : sampleDirectory.Blank := rfl
  have within : (begin "Shop" none sampleDirectory).RoomyFor shelf sampleRun := within_begin blank _ _ (by decide)
  have collisionFree : Checksum.CollisionFree (sampleRun.flatMap Step.contents) := by decide +kernel
  refine ⟨blank, within, collisionFree, by decide +kernel, ?_⟩
  exact (address_one_document blank "Shop" none within collisionFree).2

end Session

end Schemata
