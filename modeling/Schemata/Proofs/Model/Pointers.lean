import Schemata.Proofs.Model.Scope

/-! Which schemas are read back. A reference is written for every key and read for those only that a pointer
can have, so a written schema is read back exactly if all references in it have such keys. -/
namespace Schemata

open Json

namespace Reflection

variable {visible : Visible} (entries : Hoisted)

theorem pointerKey_of_names {key : String} {target : Model}
    (names : Names visible (.string (definitionsPointer ++ key)) target) : PointerKey key := by
  obtain ⟨other, nearer, further, good, same, -, -⟩ := names
  rw [Json.string.injEq, String.append_right_inj] at same
  rwa [same]

/-- A shape that is read back has models in its arrays, and pointers can have the key of what it leads to. -/
theorem DescribesShape.written {s back : Shape} (read : DescribesShape visible (s.schema entries) back) :
    s.Direct ∧ ∀ t, s.target? = some t → PointerKey (entries.keyOf t) := by
  cases s with
  | scalar kind => exact ⟨trivial, nofun⟩
  | model target =>
    refine ⟨trivial, ?_⟩
    rintro t ⟨rfl⟩
    cases read with
    | scalar type word => simp [find?] at type
    | array type items names => simp [find?] at type
    | reference untyped found names =>
      obtain rfl : Json.string (definitionsPointer ++ entries.keyOf target) = _ := by simpa [find?] using found
      exact pointerKey_of_names names
  | array item =>
    cases read with
    | scalar type word =>
      obtain rfl : "array" = _ := by simpa [find?] using type
      simp [scalarWords] at word
    | @array _ pointer _ type items names =>
      have single : item.schema entries = .object [("$ref", pointer)] := by simpa [find?] using items
      cases item with
      | scalar kind => simp [Shape.schema] at single
      | array inner => simp [Shape.schema] at single
      | model target =>
        refine ⟨trivial, ?_⟩
        rintro t ⟨rfl⟩
        obtain rfl : Json.string (definitionsPointer ++ entries.keyOf target) = _ := by
          simpa [Shape.schema] using single
        exact pointerKey_of_names names
    | reference untyped found names => simp [find?] at untyped

theorem written_of_describesFields {required : List String} {fs back : List Field}
    (read : List.Forall₂ (DescribesField visible required) (fs.map fun f => (f.name, f.shape.schema entries)) back) :
    ∀ f ∈ fs, f.shape.Direct ∧ ∀ t, f.shape.target? = some t → PointerKey (entries.keyOf t) := by
  rw [List.forall₂_map_left_iff] at read
  induction read with
  | nil => nofun
  | cons first _ ih => exact List.forall_mem_cons.mpr ⟨DescribesShape.written entries first.shape, ih⟩

theorem Describes.written {m back : Model} (distinct : m.Distinct) {more : List (String × Json)}
    (read : Describes visible (.object (m.schemaMembers entries ++ more)) back) :
    ∀ f ∈ m.fields, f.shape.Direct ∧ ∀ t, f.shape.target? = some t → PointerKey (entries.keyOf t) := by
  cases read with
  | schema _ _ _ _ _ _ listed _ described =>
    rw [m.find?_properties entries distinct, Option.some.injEq, Json.object.injEq] at listed
    rw [← listed] at described
    exact written_of_describesFields entries described

end Reflection

open Reflection

theorem Model.hoisted_read {m back : Model} (read : Describes [] m.toSchema back) :
    ∀ entry ∈ m.hoisted, ∃ around inner,
      Describes around (.object (entry.2.schemaMembers m.hoisted)) inner := by
  intro entry member
  have given := m.find?_definitions
  generalize m.toSchema = schema at read given
  cases read with
  | schema _ _ _ declares keys each =>
    have same := declares.getD_eq.symm.trans given
    have declared := List.mem_map_of_mem (f := fun entry : String × Model =>
      (entry.1, Json.object (entry.2.schemaMembers m.hoisted))) member
    rw [← Json.object.inj same] at declared
    obtain ⟨i, at_⟩ := List.getElem?_of_mem declared
    obtain ⟨⟨key, inner⟩, put, named⟩ := exists_getElem? keys at_
    obtain rfl : key = entry.1 := named
    exact ⟨_, inner, each i _ _ inner at_ put⟩

section
variable {m back : Model} (distinct : m.AllDistinct) (read : Model.ofSchema m.toSchema = .ok back)
include distinct read

theorem Model.written_of_read : ∀ s, m.Reaches s → ∀ f ∈ s.fields,
    f.shape.Direct ∧ ∀ t, f.shape.target? = some t → PointerKey (m.hoisted.keyOf t) := by
  have describes : Describes [] m.toSchema back := describes_of_reflectIn read
  intro s reached
  rcases Relation.ReflTransGen.cases_head reached with rfl | ⟨t, leads, further⟩
  · exact Describes.written _ distinct.here describes
  · obtain ⟨entry, inside, rfl⟩ := List.mem_map.mp (m.mem_hoisted (.head' leads further))
    obtain ⟨around, inner, defined⟩ := Model.hoisted_read describes entry inside
    rw [← List.append_nil (entry.2.schemaMembers m.hoisted)] at defined
    exact Describes.written _ (distinct _ reached) defined

theorem Model.pointable_of_read : m.Pointable :=
  fun s reached f inside => (Model.written_of_read distinct read s reached f inside).2

theorem Model.reflected_of_read : back = m.reflected := by
  have same := (Model.pointable_of_read distinct read).ofSchema_toSchema distinct
    fun s reached f inside => (Model.written_of_read distinct read s reached f inside).1
  exact Except.ok.inj (read.symm.trans same)

end

/-- The schema of a model that a schema describes is read back exactly if pointers can have the keys of all
references in it, as they can if they can have all keys that are declared. What is read back has the name, the
description and the fields of the model, up to definitions. -/
theorem Model.described_reads_back_iff {schema : Json} {m : Model} (unique : schema.Unrepeated)
    (described : Model.ofSchema schema = .ok m) :
    ((∃ back, Model.ofSchema m.toSchema = .ok back) ↔ m.Pointable) ∧
      (∀ back, Model.ofSchema m.toSchema = .ok back → back.name = m.name ∧
        back.description = m.description ∧ back.fields = Field.eraseAll m.fields) ∧
      ((∀ t, m.Reaches t → ∀ d ∈ t.definitions, PointerKey d.key) → m.Pointable) := by
  have closed : m.Scoped [] := (describes_of_reflectIn described).scoped unique
  have around : ∀ u, m.Reaches u → u.Distinct ∧ ∀ f ∈ u.fields, f.shape.Direct :=
    closed.reached fun _ outside => absurd outside List.not_mem_nil
  have written (pointable : m.Pointable) : Model.ofSchema m.toSchema = .ok m.reflected :=
    pointable.ofSchema_toSchema (fun u reached => (around u reached).1) fun u reached => (around u reached).2
  have read {back : Model} (success : Model.ofSchema m.toSchema = .ok back) : m.Pointable :=
    Model.pointable_of_read (fun u reached => (around u reached).1) success
  refine ⟨⟨fun ⟨back, success⟩ => read success, fun pointable => ⟨_, written pointable⟩⟩, ?_, closed.pointable⟩
  intro back success
  have same := written (read success)
  rw [success] at same
  cases same
  exact ⟨rfl, rfl, rfl⟩

/-- A schema with two definitions that are equal, one under the given key; its only field refers to the other,
and is described as leading to what the first one is. -/
def Model.sharedUnder (key : String) : Json :=
  let inner : Json := .object [("title", .string "X"), ("type", .string "object"), ("properties", .object [])]
  .object [("title", .string "T"), ("type", .string "object"),
    ("definitions", .object [(key, inner), ("ok", inner)]),
    ("properties", .object [("f", .object [("$ref", .string "#/definitions/ok")])])]

def Model.describedUnder (key : String) : Model :=
  (((Model.named "T").addDefinition key (.named "X")).addDefinition "ok" (.named "X")).addField "f"
    (.model (.named "X")) false

theorem Model.sharedUnder_reads_back : (Model.sharedUnder "first").Unrepeated ∧
    Model.ofSchema (Model.sharedUnder "first") = .ok (Model.describedUnder "first") ∧
    ∃ back, Model.ofSchema (Model.describedUnder "first").toSchema = .ok back ∧ back.name = "T" ∧
      back.description = none ∧ back.fields = Field.eraseAll (Model.describedUnder "first").fields := by
  have unique : (Model.sharedUnder "first").Unrepeated := by
    simp [Model.sharedUnder, Json.Unrepeated, Json.UnrepeatedMembers]
  have described : Model.ofSchema (Model.sharedUnder "first") = .ok (Model.describedUnder "first") := rfl
  have sound : (Model.describedUnder "first").Sound := by decide +kernel
  obtain ⟨exactly, faithful, usable⟩ := Model.described_reads_back_iff unique described
  obtain ⟨back, read⟩ := exactly.mpr (usable sound.keys)
  exact ⟨unique, described, back, read, faithful back read⟩

/-- The equal definitions share the key of the first, which no pointer can have if there is a slash in it. -/
theorem Model.sharedUnder_slash : (Model.sharedUnder "a/b").Unrepeated ∧
    Model.ofSchema (Model.sharedUnder "a/b") = .ok (Model.describedUnder "a/b") ∧
    Model.ofSchema (Model.describedUnder "a/b").toSchema = .error (.pointerNotLocal "#/definitions/a/b") :=
  ⟨by simp [Model.sharedUnder, Json.Unrepeated, Json.UnrepeatedMembers], rfl, by with_unfolding_all rfl⟩

end Schemata
