import Schemata.Proofs.Json.Readable
import Schemata.Proofs.Model.Sound

/-! The documents of models spell the schemas of the models. Arrays that hold models directly keep a schema
from nesting deeper than a text may. -/
namespace Schemata

open Json

theorem Shape.readable_schema (entries : Hoisted) {s : Shape} (direct : s.Direct) :
    (s.schema entries).Readable 2 := by
  have reference (t : Model) : ((Shape.model t).schema entries).Readable 1 :=
    readable_object (by simp) (by simp [readable_string])
  cases s with
  | scalar kind => exact readable_object (by simp) (by simp [readable_string])
  | model target => exact (reference target).mono (by decide)
  | array item =>
    cases item with
    | model target =>
      apply readable_object (by simp)
      intro member inside
      rcases List.mem_cons.mp inside with rfl | last
      · exact readable_string 1 _
      · rw [List.mem_singleton.mp last]
        exact reference target
    | scalar kind => exact direct.elim
    | array inner => exact direct.elim

namespace Model

variable {m : Model} (entries : Hoisted)

/-- The keys that a model's schema may have, in order. -/
theorem keys_schemaMembers (m : Model) :
    ((m.schemaMembers entries).map (·.1)).Sublist
      ["title", "description", "type", "properties", "required"] := by
  cases described : m.description <;> cases required : m.requiredNames <;>
    simp [schemaMembers, Json.optional, described, required]

theorem readable_schemaMembers (direct : ∀ f ∈ m.fields, f.shape.Direct) :
    ∀ member ∈ m.schemaMembers entries, member.2.Readable 3 := by
  have properties : (object (distinct (m.fields.map fun f => (f.name, f.shape.schema entries)))).Readable 3 := by
    apply readable_object (nodup_distinct _)
    intro member inside
    obtain ⟨f, field, rfl⟩ := List.mem_map.mp (mem_of_mem_distinct inside)
    exact f.shape.readable_schema entries (direct f field)
  have names : (array (m.requiredNames.map string)).Readable 3 := by
    apply readable_array
    intro v inside
    obtain ⟨name, -, rfl⟩ := List.mem_map.mp inside
    exact readable_string 2 name
  cases described : m.description <;> cases required : m.requiredNames <;>
    simp_all [schemaMembers, Json.optional, readable_string]

theorem readable_toSchema (direct : ∀ t, m.Reaches t → ∀ f ∈ t.fields, f.shape.Direct) :
    m.toSchema.Readable 6 := by
  have unique (t : Model) : ((t.schemaMembers m.hoisted).map (·.1)).Nodup :=
    (keys_schemaMembers m.hoisted t).nodup (by decide)
  have own := readable_schemaMembers m.hoisted (direct m .refl)
  have definitions : (object (m.hoisted.map fun entry =>
      (entry.1, object (entry.2.schemaMembers m.hoisted)))).Readable 5 := by
    refine readable_object (by simpa [Function.comp_def] using m.hoisted_grows.1.nodup_keys) ?_
    intro member inside
    obtain ⟨entry, hoisted, rfl⟩ := List.mem_map.mp inside
    exact readable_object (unique entry.2)
      (readable_schemaMembers m.hoisted (direct entry.2 (reaches_hoisted hoisted)))
  unfold toSchema
  dsimp only
  split
  · rw [List.append_nil]
    exact (readable_object (unique m) own).mono (by decide)
  · refine readable_object ?_ fun member inside => ?_
    · rw [List.map_append, List.nodup_append]
      refine ⟨unique m, by simp, ?_⟩
      intro key inside other last same
      have definitions : other = "definitions" := by simpa using last
      have listed := (keys_schemaMembers m.hoisted m).subset inside
      rw [same, definitions] at listed
      exact absurd listed (by decide)
    · rcases List.mem_append.mp inside with first | last
      · exact (own member first).mono (by decide)
      · rw [List.mem_singleton.mp last]
        exact definitions

/-- The document of a model whose arrays hold models directly spells its schema. -/
theorem value?_document (direct : ∀ t, m.Reaches t → ∀ f ∈ t.fields, f.shape.Direct) :
    m.document.value? = some m.toSchema :=
  ((readable_toSchema direct).mono (by decide)).ofText?_text

end Model

theorem Shape.exact_schema (entries : Hoisted) (s : Shape) : (s.schema entries).Exact := by
  induction s using Shape.target?.induct with
  | case1 kind => exact ⟨trivial, trivial⟩
  | case2 target => exact ⟨trivial, trivial⟩
  | case3 item ih => exact ⟨trivial, ih, trivial⟩

theorem Model.exact_schemaMembers (entries : Hoisted) (m : Model) :
    ∀ member ∈ m.schemaMembers entries, member.2.Exact := by
  have properties : (object (distinct (m.fields.map fun f => (f.name, f.shape.schema entries)))).Exact := by
    apply exactMembers_iff.mpr
    intro member inside
    obtain ⟨f, -, rfl⟩ := List.mem_map.mp (mem_of_mem_distinct inside)
    exact f.shape.exact_schema entries
  have names : (array (m.requiredNames.map string)).Exact := by
    apply exactItems_iff.mpr
    intro v inside
    obtain ⟨name, -, rfl⟩ := List.mem_map.mp inside
    trivial
  have text (s : String) : (string s).Exact := trivial
  cases described : m.description <;> cases required : m.requiredNames <;>
    simp_all [schemaMembers, Json.optional]

theorem Model.exact_toSchema (m : Model) : m.toSchema.Exact := by
  have definitions : (object (m.hoisted.map fun entry =>
      (entry.1, object (entry.2.schemaMembers m.hoisted)))).Exact := by
    apply exactMembers_iff.mpr
    intro member inside
    obtain ⟨entry, -, rfl⟩ := List.mem_map.mp inside
    exact exactMembers_iff.mpr (entry.2.exact_schemaMembers m.hoisted)
  apply exactMembers_iff.mpr
  intro member inside
  rcases List.mem_append.mp inside with own | last
  · exact m.exact_schemaMembers m.hoisted member own
  · split at last
    · cases last
    · rw [List.mem_singleton.mp last]
      exact definitions

end Schemata
