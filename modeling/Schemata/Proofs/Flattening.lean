import Schemata.Proofs.Idempotence
import Schemata.Proofs.Model.Canonical
import Schemata.Proofs.Publishing

/-! Models that come back from a directory. A stored model is reflected without the definitions inside of it;
registered in that form it is the version that is stored already, if its schema is still the same. -/
namespace Schemata

open ReportingDirectory

namespace Session

theorem shelf_account (w : Session Store) : w.account.shelf = w.shelf := by
  rw [Session.account, Session.shelf, w.directory.shelf_catalog]
  exact w.directory.shelf_report

section
variable {s : Store} (blank : s.Blank) (accepts : s.Accepts) (registry : String) (start : Option String)
include blank accepts

theorem truthful_begin : (begin registry start s).Truthful where
  kept := ⟨blank.kept, accepts⟩
  numbered registry' name := by
    change Shelf.Numbered ((report s).shelf registry' name)
    rw [s.shelf_report, blank.shelf]
    exact .empty
  recounts := Registry.recounts_new registry start _

theorem registered_reflects {before : List Step} {now : Clock} {name : QualifiedName} {m : Model} (sound : m.Sound)
    (within : (begin registry start s).RoomyFor shelf before)
    (small : ((begin registry start s).run before).1.shelf.Roomy)
    (collisionFree : Checksum.CollisionFree (before.flatMap Step.contents ++ [m.document.text]))
    {v : Version} {r₁ : Registry} {s₁ : Store}
    (answered : ((begin registry start s).run before).1.registry.register now.val name m
      ((begin registry start s).run before).1.directory = (.ok v, r₁, s₁)) :
    r₁.model name.text none s₁ = (.ok m.reflected, r₁, s₁) ∧
      ∀ (again : Clock) (other : Model), other.document = m.document → ∃ r₂ s₂,
        r₁.register again.val name other s₁ = (.ok v, r₂, s₂) ∧ s₂.shelf = s₁.shelf := by
  obtain ⟨-, sameName, done, document⟩ :=
    registered_document blank registry start within small collisionFree answered
  constructor
  · obtain ⟨h, held, last⟩ := done.default
    have read : r₁.history name.text s₁ = (.ok h, r₁, s₁) := by
      rw [Registry.history, held]
    have latest : h.get? none = some v := by
      simp [History.get?, last]
    rw [Registry.model, Registry.document, read]
    dsimp only
    rw [latest]
    dsimp only
    rw [document, Model.modelOf_document sound]
  · intro again other sameDocument
    rw [← funext shelf_account] at within
    obtain ⟨truthful, named, -⟩ := run_settles (truthful_begin blank accepts registry start) within
    have roomy := within.last
    generalize ((begin registry start s).run before).1 = w at *
    have enrols := Registry.register_enrols now.property name m truthful.kept rfl truthful.numbered
      truthful.recounts (roomy _ _)
    rw [answered] at enrols
    obtain ⟨d, described, rfl, checksum⟩ := enrols.answered v rfl
    have own : w.registry.name = r₁.name := named.trans sameName.symm
    have fits : ((report s₁).shelf w.registry.name name.text).size < 18446744073709551616 :=
      Nat.lt_of_le_of_lt (enrols.adds.size_le truthful.numbered _ _) (Nat.succ_lt_succ (roomy _ _))
    rw [own] at described fits
    obtain ⟨r₂, s₂, repeated, unchanged⟩ := Registry.register_again again.property name other enrols.kept
      enrols.recounts fits described (by rw [sameDocument]; exact checksum)
    refine ⟨r₂, s₂, by rw [own]; exact repeated, ?_⟩
    rw [← s₂.shelf_report, unchanged, Store.shelf_report]

end

end Session

open Session

theorem Model.handle_reflected {m : Model} (discernible : m.Discernible) : m.reflected.handle = m.handle := by
  rw [Model.handle, Model.handle, Model.toSchema_reflected discernible]
  rfl

/-- The schema of a sound model is reflected in its flat form. That has the same schema exactly if no two
different models below the first are the same but for their definitions; then it has the same handle, and
registering it adds no version to the one that it was reflected from. The flat form of a flat form always has
the schema that it is read from. -/
theorem Model.flat_form (m : Model) (sound : m.Sound) :
    Model.ofSchema m.toSchema = .ok m.reflected ∧
    (m.reflected.toSchema = m.toSchema ↔ m.Discernible) ∧
    (m.Discernible → m.reflected.handle = m.handle) ∧
    (Model.ofSchema m.reflected.toSchema = .ok m.reflected.reflected ∧
      m.reflected.reflected.toSchema = m.reflected.toSchema) ∧
    ∀ (s : Store) (registry : String) (start : Option String) (before : List Step) (now : Clock)
      (name : QualifiedName), s.Blank → s.Accepts → (begin registry start s).RoomyFor shelf before →
      ((begin registry start s).run before).1.shelf.Roomy →
      Checksum.CollisionFree (before.flatMap Step.contents ++ [m.document.text]) → ∀ v r₁ s₁,
      ((begin registry start s).run before).1.registry.register now.val name m
        ((begin registry start s).run before).1.directory = (.ok v, r₁, s₁) →
      r₁.model name.text none s₁ = (.ok m.reflected, r₁, s₁) ∧
      (m.Discernible → ∀ again : Clock, ∃ r₂ s₂,
        r₁.register again.val name m.reflected s₁ = (.ok v, r₂, s₂) ∧ s₂.shelf = s₁.shelf) := by
  refine ⟨Model.ofSchema_toSchema sound, m.toSchema_reflected_iff, Model.handle_reflected,
    ⟨Model.ofSchema_toSchema sound.reflected, Model.toSchema_reflected m.discernible_reflected⟩, ?_⟩
  intro s registry start before now name blank accepts within small collisionFree v r₁ s₁ answered
  obtain ⟨reflects, repeats⟩ :=
    registered_reflects blank accepts registry start sound within small collisionFree answered
  refine ⟨reflects, fun discernible again => repeats again m.reflected ?_⟩
  rw [Model.document, Model.document, Model.toSchema_reflected discernible]

/-- Two models that differ in a definition only, which nothing refers to. -/
def Model.lookalikes : Model :=
  ((Model.named "R").addField "a" (.model ((Model.named "X").addDefinition "K" (.named "Y"))) true).addField "b"
    (.model (.named "X")) true

/-- The flat form of the lookalikes refers to one definition where their schema refers to two. -/
theorem Model.lookalikes_changed : Model.lookalikes.Sound ∧
    Model.ofSchema Model.lookalikes.toSchema = .ok Model.lookalikes.reflected ∧
    Model.lookalikes.reflected.toSchema ≠ Model.lookalikes.toSchema ∧
    Model.lookalikes.reflected.handle ≠ Model.lookalikes.handle := by
  have sound : Model.lookalikes.Sound := by decide +kernel
  refine ⟨sound, Model.ofSchema_toSchema sound, fun same => ?_, by decide +kernel⟩
  exact absurd ((Model.toSchema_reflected_iff _).mp same) (by decide +kernel)

theorem Model.sampleOrder_flat_form : Model.sampleOrder.Sound ∧ Model.sampleOrder.Discernible ∧
    Model.ofSchema Model.sampleOrder.toSchema = .ok Model.sampleOrder.reflected ∧
    Model.sampleOrder.reflected.toSchema = Model.sampleOrder.toSchema ∧
    ∃ v r₁ s₁ r₂ s₂,
      (Registry.new "Shop" none).register sampleClock.val ⟨"shop", "Order"⟩ Model.sampleOrder sampleDirectory =
        (.ok v, r₁, s₁) ∧
      r₁.model "shop.Order" none s₁ = (.ok Model.sampleOrder.reflected, r₁, s₁) ∧
      r₁.register sampleClock.val ⟨"shop", "Order"⟩ Model.sampleOrder.reflected s₁ = (.ok v, r₂, s₂) ∧
      s₂.shelf = s₁.shelf := by
  have sound : Model.sampleOrder.Sound := by decide +kernel
  have discernible : Model.sampleOrder.Discernible := by decide +kernel
  obtain ⟨back, same, -, -, sessions⟩ := Model.sampleOrder.flat_form sound
  have collisionFree : Checksum.CollisionFree [Model.sampleOrder.document.text] := by
    intro a first b second _
    rw [List.mem_singleton.mp first, List.mem_singleton.mp second]
  have blank : sampleDirectory.Blank := rfl
  have within : (begin "Shop" none sampleDirectory).RoomyFor shelf [] := within_begin blank _ _ (by decide)
  have succeeds : ((Registry.new "Shop" none).register sampleClock.val ⟨"shop", "Order"⟩ Model.sampleOrder
      sampleDirectory).1.toOption.isSome = true := by decide +kernel
  rcases answered : (Registry.new "Shop" none).register sampleClock.val ⟨"shop", "Order"⟩ Model.sampleOrder
    sampleDirectory with ⟨answer, r₁, s₁⟩
  rw [answered] at succeeds
  cases answer with
  | error e => simp [Except.toOption] at succeeds
  | ok v =>
    obtain ⟨reflects, repeats⟩ := sessions sampleDirectory "Shop" none [] sampleClock ⟨"shop", "Order"⟩ blank rfl
      within within collisionFree v r₁ s₁ answered
    obtain ⟨r₂, s₂, repeated, unchanged⟩ := repeats discernible sampleClock
    exact ⟨sound, discernible, back, same.mpr discernible, v, r₁, s₁, r₂, s₂, rfl, reflects, repeated, unchanged⟩

end Schemata
