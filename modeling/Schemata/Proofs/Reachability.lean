import Schemata.Proofs.Addressing
import Schemata.Proofs.Evolution
import Schemata.Proofs.Registry.Listing

/-! Whether a registered document stays within reach. It is stored for good, and each history of its schema that
is kept has it; but a load lists its schema only if the name starts as wanted or is that of a registered model. -/
namespace Schemata

open ReportingDirectory

/-- If the step loads the registry, it lists the schema. -/
def Step.Spares (name : String) (w : Session (Faulty Store)) (step : Step) : Prop :=
  ∀ now, step.move w = .load now → (w.registry.load now.val w.directory).1 = .ok () →
    (⟨w.registry.name, w.registry.start, none⟩ : ListRequest).wants name = true ∨
      ∃ v ∈ w.registry.models.values, v.name = name

namespace Session

variable {w : Session (Faulty Store)}

def Finds (name : String) (id : VersionId) (document : Document) (w : Session (Faulty Store)) : Prop :=
  name ∈ w.registry.schemaNames ∧
    ∃ r' s', w.registry.document name (some id.text) w.directory.behind = (.ok document, r', s')

/-- The version is stored, and no history of its schema is kept without it. -/
structure Holds (name : String) (id : VersionId) (document : Document) (w : Session (Faulty Store)) : Prop where
  stored : (w.account.shelf w.registry.name name).get? id = some (some document.text)
  cached : ∀ h, w.registry.histories.get? name = some h → h.Has id

variable {name : String} {id : VersionId} {document : Document}

theorem Holds.filled (holds : w.Holds name id document) : w.account.shelf w.registry.name name ≠ Table.empty := by
  intro bare
  have stored := holds.stored
  rw [bare] at stored
  cases stored

section
variable (consistent : w.Consistent) (roomy : w.account.shelf.Roomy) (holds : w.Holds name id document)
include consistent roomy holds

theorem Holds.finds_iff : w.Finds name id document ↔ w.registry.listed.contains name = true := by
  have view : (LawfulDirectory.catalog w.directory.behind).shelf = w.account.shelf := w.directory.catalog_behind
  refine ⟨fun finds => Table.contains_iff_mem_keys.mpr finds.1, fun listed => ⟨Table.contains_iff_mem_keys.mp listed, ?_⟩⟩
  refine Registry.document_ok consistent.truthful.kept.1.1 rfl ?_ ?_ listed ?_ holds.cached
  · rw [view]
    exact Nat.lt_succ_of_lt (roomy _ _)
  · rw [view]
    exact consistent.coherent
  · rw [view]
    exact holds.stored

theorem Holds.step (step : Step) : (step.run w).1.Holds name id document := by
  have evolves := consistent.step roomy step
  constructor
  · rw [evolves.sameName]
    exact evolves.adds.extends consistent.truthful.numbered _ _ _ _ holds.stored
  · intro h' kept
    obtain ⟨h, origin, shape⟩ := evolves.retains name h' kept
    have has : h.Has id := by
      rcases origin with kept | whole
      · exact holds.cached h kept
      · exact whole.complete id (by rw [holds.stored]; exact Option.some_ne_none _)
    rcases shape with rfl | ⟨v, -, -, rfl⟩
    · exact has
    · exact (History.has_insert h v id).mpr (.inl has)

theorem Holds.listed_step_iff (listed : w.registry.listed.contains name = true) (step : Step) :
    (step.run w).1.registry.listed.contains name = true ↔ step.Spares name w := by
  have evolves := consistent.step roomy step
  by_cases loads : ∃ now, step.move w = .load now
  · obtain ⟨now, loads⟩ := loads
    have spares : step.Spares name w ↔ ((w.registry.load now.val w.directory).1 = .ok () →
        (⟨w.registry.name, w.registry.start, none⟩ : ListRequest).wants name = true ∨
          ∃ v ∈ w.registry.models.values, v.name = name) := by
      refine ⟨fun spares => spares now loads, fun spares now' loads' => ?_⟩
      rw [loads] at loads'
      cases loads'
      exact spares
    rw [step.run_move, loads, Move.run, spares]
    rcases loaded : w.registry.load now.val w.directory with ⟨e | _, r', s'⟩
    · obtain rfl : r' = w.registry := by
        cases Registry.loads_of_load loaded
        rfl
      exact ⟨fun _ loads => (by cases loads), fun _ => listed⟩
    · have lists := (Registry.load_lists loaded).2 name
      rw [Store.mem_wanted consistent.truthful.kept.1.1 (by rw [← Store.shelf_report]; exact holds.filled)] at lists
      exact Table.contains_iff_mem_keys.trans (lists.trans ⟨fun found _ => found, fun found => found rfl⟩)
  · exact ⟨fun _ now moves => absurd ⟨now, moves⟩ loads,
      fun _ => evolves.listed (fun now moves => loads ⟨now, moves⟩) name listed⟩

end

theorem Consistent.registered (consistent : w.Consistent) (roomy : w.account.shelf.Roomy) {now : Clock}
    {name : QualifiedName} {model : Model} {v : Version} {r₁ : Registry} {s₁ : Faulty Store}
    (answered : w.registry.register now.val name model w.directory = (.ok v, r₁, s₁)) :
    w.Evolves (.register now name model) ⟨r₁, s₁⟩ ∧
      r₁.Registered (report s₁).shelf name.text model v ∧ r₁.listed.contains name.text = true ∧
      (Session.mk r₁ s₁).Holds name.text v.id v.document := by
  have evolves : w.Evolves (.register now name model) ⟨r₁, s₁⟩ := by
    have evolves := consistent.register roomy now name model
    rw [Move.run, answered] at evolves
    exact evolves
  have keeps := Registry.register_keeps now.property name model consistent.truthful.kept consistent.truthful.numbered
    consistent.truthful.recounts consistent.coherent (roomy _ _)
  rw [answered] at keeps
  have registered : r₁.Registered (report s₁).shelf name.text model v := keeps.registered v rfl
  have relies := evolves.consistent.coherent.models _ _ registered.recorded
  refine ⟨evolves, registered, registered.named ▸ relies.listed, ?_, fun h kept => ?_⟩
  · exact ((Registry.sorted_report evolves.consistent.truthful.kept _ _).last?_eq_some_iff.mp registered.greatest).1
  · exact relies.cached h (registered.named.symm ▸ kept)

section
variable {s : Store} (blank : s.Blank) (accepts : s.Accepts) {faults : List Fault}
  (honest : ∀ fault ∈ faults, fault.Honest) (registry : String) (start : Option String)
include blank accepts honest

/-- A registered document stays within reach all the time if and only if each load that succeeds finds that the
name of its schema starts as wanted or is that of a version in the cache of models. -/
theorem registered_found_iff {before later : List Step} {now : Clock} {name : QualifiedName} {model : Model}
    (roomy : (beginAmid faults registry start s).RoomyFor (·.account.shelf)
      (before ++ .register now name model :: later))
    (collisionFree : Checksum.CollisionFree (before.flatMap Step.contents ++ [model.document.text]))
    {v : Version} {r₁ : Registry} {s₁ : Faulty Store}
    (answered : ((beginAmid faults registry start s).run before).1.registry.register now.val name model
      ((beginAmid faults registry start s).run before).1.directory = (.ok v, r₁, s₁)) :
    (Session.mk r₁ s₁).Always (Finds name.text v.id model.document) later ↔
      (Session.mk r₁ s₁).Throughout (Step.Spares name.text) later := by
  obtain ⟨room, rest⟩ := roomy.append
  obtain ⟨consistent, -, origin⟩ := (consistent_beginAmid blank accepts honest registry start).run room
  simp only [shelf_beginAmid blank, Table.get?_empty, reduceCtorEq, false_or] at origin
  generalize ((beginAmid faults registry start s).run before).1 = w at *
  obtain ⟨evolves, registered, listed, holds⟩ := consistent.registered rest.1 answered
  have ran : (Step.run w (.register now name model)).1 = ⟨r₁, s₁⟩ := by
    simp only [Step.run, answered]
    rfl
  have roomy₁ := rest.2
  rw [ran] at roomy₁
  have given : v.document.text ∈ before.flatMap Step.contents ++ [model.document.text] := by
    rw [List.mem_append]
    rcases evolves.adds.origin holds.stored with old | ⟨text, new, same⟩
    · obtain ⟨text, earlier, same⟩ := origin _ _ _ _ old
      exact .inl (Option.some.inj same ▸ earlier)
    · exact .inr (Option.some.inj same ▸ new)
  rw [collisionFree.document_eq given registered.checksum] at holds
  refine always_iff_throughout (Holds name.text v.id model.document)
    (fun _ step consistent roomy holds => holds.step consistent roomy step) ?_ evolves.consistent roomy₁ holds
    ((holds.finds_iff evolves.consistent roomy₁.here).mpr listed)
  intro w' step consistent' roomy' roomy'' holds' finds
  rw [(holds'.step consistent' roomy' step).finds_iff (consistent'.step roomy' step).consistent roomy'']
  exact holds'.listed_step_iff consistent' roomy' ((holds'.finds_iff consistent' roomy').mp finds) step

end

def sampleFirst (start : Option String) : Except SchemaError Version × Registry × Faulty Store :=
  (beginAmid [] "Shop" start (.memory (.empty 10))).registry.register sampleMoment.val ⟨"shop", "Order"⟩
    (.named "Order") (beginAmid [] "Shop" start (.memory (.empty 10))).directory

/-- The same model is registered under another name, and the registry is loaded. -/
def sampleMoved : List Step := [.register sampleMoment ⟨"sales", "Order"⟩ (.named "Order"), .load sampleMoment]

theorem sampleFirst_eq {start : Option String} (succeeds : (sampleFirst start).1.toOption.isSome = true) :
    ∃ v, sampleFirst start = (.ok v, (sampleFirst start).2.1, (sampleFirst start).2.2) := by
  cases answer : (sampleFirst start).1 with
  | error e => simp [answer, Except.toOption] at succeeds
  | ok v => exact ⟨v, Prod.ext answer rfl⟩

theorem sampleMoved_found : ∃ v r₁ s₁, sampleFirst none = (.ok v, r₁, s₁) ∧
    (Session.mk r₁ s₁).Always (Finds "shop.Order" v.id (Model.named "Order").document) sampleMoved := by
  obtain ⟨v, answered⟩ := sampleFirst_eq (show (sampleFirst none).1.toOption.isSome = true by decide +kernel)
  have blank : (Store.memory (.empty 10)).Blank := rfl
  have honest : ∀ fault ∈ ([] : List Fault), fault.Honest := by simp
  have roomy : (beginAmid [] "Shop" none (.memory (.empty 10))).RoomyFor (·.account.shelf)
      ([] ++ .register sampleMoment ⟨"shop", "Order"⟩ (.named "Order") :: sampleMoved) :=
    roomyFor_beginAmid blank rfl honest "Shop" none (by decide)
  have collisionFree : Checksum.CollisionFree ([].flatMap Step.contents ++ [(Model.named "Order").document.text]) := by
    simp [Checksum.CollisionFree]
  exact ⟨v, _, _, answered, (registered_found_iff blank rfl honest "Shop" none roomy collisionFree answered).mpr
    ⟨fun _ loads => (by cases loads), fun _ _ _ => .inl rfl, trivial⟩⟩

/-- The registry wants neither the first name nor is the model registered under it any more. -/
theorem sampleMoved_lost : ∃ v r₁ s₁, sampleFirst (some "sales.") = (.ok v, r₁, s₁) ∧
    ¬ (Session.mk r₁ s₁).Always (Finds "shop.Order" v.id (Model.named "Order").document) sampleMoved := by
  obtain ⟨v, answered⟩ := sampleFirst_eq (show (sampleFirst (some "sales.")).1.toOption.isSome = true by decide +kernel)
  have lost : "shop.Order" ∉ (Session.run ⟨(sampleFirst (some "sales.")).2.1, (sampleFirst (some "sales.")).2.2⟩
      sampleMoved).1.registry.schemaNames := by decide +kernel
  exact ⟨v, _, _, answered, fun always => lost always.last.1⟩

end Session

end Schemata
