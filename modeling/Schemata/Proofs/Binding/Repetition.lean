import Schemata.Proofs.Envelope
import Schemata.Proofs.Model.Pointers

/-! Payloads that are bound a second time: by the model that has bound them, and by the one that a consumer reads
back from its schema. Neither finds anything left to drop, to reorder or to turn into whole numbers. -/
namespace Schemata

theorem Model.bind_of_read {m back : Model} (distinct : m.AllDistinct)
    (read : Model.ofSchema m.toSchema = .ok back) (payload : Json) : back.bind payload = m.bind payload := by
  rw [Model.reflected_of_read distinct read, Model.bind_reflected]

/-- A bound value is bound to itself, with its members in the same order, if no level of the model has two fields of
one name. A consumer whose registry has for an envelope what the model's schema is read back as opens it with just
the value that was bound. -/
theorem Model.bound_value_kept {m : Model} (distinct : ∀ t, m.Level t → t.Distinct) {payload b : Json}
    (bound : m.bind payload = .ok b) :
    m.bind b = .ok b ∧
      (m.AllDistinct → ∀ back, Model.ofSchema m.toSchema = .ok back → back.bind b = .ok b ∧
        ∀ (σ : Type) [Directory σ] (e : Envelope) (defaultRegistry : String) (id : Identity) (r r' : Registry)
          (s s' : σ), e.payload = b → e.identity defaultRegistry = .ok id → id.registry = r.name →
          r.model id.schema (some id.version) s = (.ok back, r', s') →
          e.open? defaultRegistry r s = (.ok (back, b), r', s')) := by
  have again : m.bind b = .ok b := Model.bindAt_again (Shape.each_model distinct) bound []
  refine ⟨again, fun all back read => ?_⟩
  have same : back.bind b = .ok b := by rw [Model.bind_of_read all read, again]
  refine ⟨same, fun σ _ e defaultRegistry id r r' s s' carried identity own found => ?_⟩
  exact Envelope.open?_of_model identity own found (by rw [carried, same])

def Json.sampleOrder : Json :=
  let three : Double := ⟨false, 6755399441055744, -51, by decide⟩
  .object [("note", .bool true), ("extra", .null), ("items", .array [.object [
    ("label", .string "first"), ("code", .object [("unit", .null), ("id", .number (.double three))])]])]

theorem Model.sampleOrder_kept :
    let bound : Json := .object [("items", .array [.object [
      ("code", .object [("id", .number (.whole ⟨3, by decide⟩))]), ("label", .string "first")]])]
    Model.sampleOrder.AllDistinct ∧ Model.sampleOrder.bind .sampleOrder = .ok bound ∧
      Model.sampleOrder.bind bound = .ok bound ∧
      ∃ back, Model.ofSchema Model.sampleOrder.toSchema = .ok back ∧ back.bind bound = .ok bound := by
  intro bound
  have sound : Model.sampleOrder.Sound := by decide +kernel
  have three : Binding.wholeOf? ⟨false, 6755399441055744, -51, by decide⟩ = some ⟨3, by decide⟩ := by decide +kernel
  have binds : Model.sampleOrder.bind .sampleOrder = .ok bound := by
    simp [bound, Model.sampleOrder, Json.sampleOrder, Model.named, Model.describe, Model.addDefinition, Model.addField,
      Model.bind, Model.bindAt, Field.bindAll, Shape.bindAt, Binding.bindItems, Binding.bindScalar, Json.find?,
      Json.put, three]
  obtain ⟨again, consumed⟩ := Model.bound_value_kept sound.distinct.levels binds
  have read := Model.ofSchema_toSchema sound
  exact ⟨sound.distinct, binds, again, _, read, (consumed sound.distinct _ read).1⟩

end Schemata
