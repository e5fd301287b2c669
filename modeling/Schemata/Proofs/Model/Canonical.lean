import Schemata.Proofs.Json.Members
import Schemata.Proofs.Model.Storage

/-! Schemas written a second time, from what was read of them. Reading drops the definitions inside of what
fields hold, so models that differ in these only are told apart by the first writing and not by the second:
the schemas are the same exactly if there are no such models. -/
namespace Schemata

open Json Reflection

theorem Shape.target?_erase (s : Shape) : s.erase.target? = s.target?.map Model.erase := by
  fun_induction Shape.target? s with
  | case1 => rfl
  | case2 => rfl
  | case3 item ih => simpa [Shape.erase, Shape.target?] using ih

theorem Model.leads_of_erase {m t : Model} (leads : m.erase.Leads t) : ∃ u, m.Leads u ∧ u.erase = t := by
  obtain ⟨name, description, fields, definitions⟩ := m
  obtain ⟨key, offers⟩ := leads
  cases offers with
  | definition member => cases member
  | field member target =>
    rw [Model.erase, Field.eraseAll_eq_map] at member
    obtain ⟨f, inside, rfl⟩ := List.mem_map.mp member
    rw [Field.erase, Shape.target?_erase] at target
    obtain ⟨u, held, rfl⟩ := Option.map_eq_some_iff.mp target
    exact ⟨u, .field inside held, rfl⟩

theorem Model.leads_of_reflected {m t : Model} (leads : m.reflected.Leads t) : ∃ s, m.Below s ∧ s.erase = t := by
  obtain ⟨key, offers⟩ := leads
  cases offers with
  | definition member =>
    obtain ⟨entry, inside, rfl⟩ := List.mem_map.mp member
    exact ⟨entry.2, Model.below_hoisted inside, rfl⟩
  | field member target =>
    obtain ⟨name, description, fields, definitions⟩ := m
    obtain ⟨u, leads, same⟩ := @Model.leads_of_erase ⟨name, description, fields, definitions⟩ t (.field member target)
    exact ⟨u, .single leads, same⟩

/-- All below a model that was read back is below the model itself, without definitions. -/
theorem Model.below_of_reflected {m t : Model} (below : m.reflected.Below t) : ∃ s, m.Below s ∧ s.erase = t := by
  induction below with
  | single leads => exact Model.leads_of_reflected leads
  | tail _ leads ih =>
    obtain ⟨s, below, rfl⟩ := ih
    obtain ⟨u, further, rfl⟩ := Model.leads_of_erase leads
    exact ⟨u, .tail below further, rfl⟩

/-- No two different models below are the same but for definitions. -/
def Model.Discernible (m : Model) : Prop := ∀ a b, m.Below a → m.Below b → a.erase = b.erase → a = b

theorem Model.discernible_iff (m : Model) :
    m.Discernible ↔ ∀ a ∈ m.innerParts, ∀ b ∈ m.innerParts, a.erase = b.erase → a = b := by
  simp only [Model.mem_innerParts_iff_below]
  exact ⟨fun discernible a belowA b belowB => discernible a b belowA belowB,
    fun apart a b belowA belowB => apart a belowA b belowB⟩

instance (m : Model) : Decidable m.Discernible := decidable_of_iff _ m.discernible_iff.symm

theorem Model.discernible_reflected (m : Model) : m.reflected.Discernible := by
  intro a b belowA belowB same
  obtain ⟨s, -, rfl⟩ := Model.below_of_reflected belowA
  obtain ⟨t, -, rfl⟩ := Model.below_of_reflected belowB
  rwa [Model.erase_erase, Model.erase_erase] at same

namespace Hoisted

/-- The entries without definitions. -/
def erased (entries : Hoisted) : Hoisted := entries.map fun entry => (entry.1, entry.2.erase)

theorem keys_erased (entries : Hoisted) : entries.erased.keys = entries.keys := by
  simp [erased, Function.comp_def]

theorem models_erased (entries : Hoisted) : entries.erased.models = entries.models.map Model.erase := by
  simp [erased, Function.comp_def]

end Hoisted

/-- A model without definitions gets an entry of its own after those of all that it leads to. -/
theorem Model.hoist_erase {m : Model} {key : String} {before : Hoisted} (fresh : m.erase ∉ before.erased.models)
    (free : key ∉ before.keys) (ready : ∀ t, m.Leads t → t ∈ before.models) :
    m.erase.hoist key before.erased = before.erased ++ [(key, m.erase)] := by
  refine Model.hoist_new fresh (by rwa [Hoisted.keys_erased]) fun t leads => ?_
  obtain ⟨u, above, rfl⟩ := Model.leads_of_erase leads
  rw [Hoisted.models_erased]
  exact List.mem_map_of_mem (ready u above)

theorem Model.hoistAll_readBack {m : Model} (discernible : m.Discernible) {before after : Hoisted}
    (parts : m.hoisted = before ++ after) :
    Definition.hoistAll before.erased (readBack after) = m.hoisted.erased := by
  obtain ⟨grows, -⟩ := m.hoisted_grows
  induction after generalizing before with
  | nil => simp [readBack, Definition.hoistAll, parts]
  | cons entry rest ih =>
    have below {other : String × Model} (inside : other ∈ before ++ entry :: rest) : m.Below other.2 :=
      Model.below_hoisted (parts ▸ inside)
    have fresh : entry.2.erase ∉ before.erased.models := by
      rw [Hoisted.models_erased]
      intro again
      obtain ⟨t, inside, same⟩ := List.mem_map.mp again
      obtain ⟨other, earlier, rfl⟩ := List.mem_map.mp inside
      have equal := discernible _ _ (below (List.mem_append_left _ earlier)) (below (by simp)) same
      exact (Hoisted.nodup_before grows.nodup_models parts).2 (equal ▸ inside)
    have free : entry.1 ∉ before.keys := (Hoisted.nodup_before grows.nodup_keys parts).2
    have later := @ih (before ++ [entry]) (by rw [parts, List.append_assoc, List.singleton_append])
    rw [readBack, List.map_cons, ← readBack, Definition.hoistAll,
      Model.hoist_erase fresh free fun t leads => grows.ordered parts leads]
    simpa [Hoisted.erased] using later

theorem Model.hoisted_reflected {m : Model} (discernible : m.Discernible) :
    m.reflected.hoisted = m.hoisted.erased := by
  have declared := @Model.hoistAll_readBack m discernible [] m.hoisted rfl
  have known : ∀ f ∈ Field.eraseAll m.fields, ∀ t, f.shape.target? = some t → t ∈ m.hoisted.erased.models := by
    intro f member t target
    rw [Field.eraseAll_eq_map] at member
    obtain ⟨g, inside, rfl⟩ := List.mem_map.mp member
    rw [Field.erase, Shape.target?_erase] at target
    obtain ⟨u, held, rfl⟩ := Option.map_eq_some_iff.mp target
    rw [Hoisted.models_erased]
    exact List.mem_map_of_mem (m.mem_hoisted (.single (.field inside held)))
  rw [Model.hoisted, Model.reflected]
  change Field.hoistAll (Definition.hoistAll (Hoisted.erased []) (readBack m.hoisted)) _ = _
  rw [declared, Field.hoistAll_of_mem known]

section
variable {entries entries' : Hoisted}

theorem Shape.schema_erase {s : Shape} (same : ∀ t, s.target? = some t → entries'.keyOf t.erase = entries.keyOf t) :
    s.erase.schema entries' = s.schema entries := by
  fun_induction Shape.target? s with
  | case1 => rfl
  | case2 target => simp [Shape.erase, Shape.schema, same target rfl]
  | case3 item ih => simp [Shape.erase, Shape.schema, ih same]

theorem Model.schemaMembers_erase {m : Model}
    (same : ∀ f ∈ m.fields, ∀ t, f.shape.target? = some t → entries'.keyOf t.erase = entries.keyOf t) :
    m.erase.schemaMembers entries' = m.schemaMembers entries := by
  obtain ⟨name, description, fields, definitions⟩ := m
  have properties : ((Field.eraseAll fields).map fun f => (f.name, f.shape.schema entries')) =
      fields.map fun f => (f.name, f.shape.schema entries) := by
    rw [Field.eraseAll_eq_map, List.map_map]
    apply List.map_congr_left
    intro f member
    simp [Field.erase, Shape.schema_erase (same f member)]
  have required : Model.requiredNames ⟨name, description, Field.eraseAll fields, []⟩ =
      Model.requiredNames ⟨name, description, fields, definitions⟩ := by
    simp [Model.requiredNames, Field.eraseAll_eq_map, List.filter_map, Field.erase, Function.comp_def]
  simp only [Model.erase, Model.schemaMembers, properties, required]

end

theorem Model.keyOf_erased {m t : Model} (discernible : m.Discernible) (below : m.Below t) :
    m.hoisted.erased.keyOf t.erase = m.hoisted.keyOf t := by
  have found : ∀ entries : Hoisted, (∀ entry ∈ entries, m.Below entry.2) →
      (entries.erased.find? fun entry => entry.2 = t.erase).map (·.1) =
        (entries.find? fun entry => entry.2 = t).map (·.1) := by
    intro entries inside
    induction entries with
    | nil => rfl
    | cons entry rest ih =>
      have later := ih fun other member => inside other (List.mem_cons_of_mem _ member)
      by_cases same : entry.2 = t
      · simp [Hoisted.erased, same]
      · have apart : entry.2.erase ≠ t.erase :=
          fun equal => same (discernible _ _ (inside entry List.mem_cons_self) below equal)
        simpa [Hoisted.erased, same, apart] using later
  have name : t.erase.name = t.name := by cases t; rfl
  rw [Hoisted.keyOf, Hoisted.keyOf, found _ fun entry member => Model.below_hoisted member, name]

theorem Model.toSchema_reflected {m : Model} (discernible : m.Discernible) : m.reflected.toSchema = m.toSchema := by
  have members {s : Model} (reached : m.Reaches s) :
      s.erase.schemaMembers m.hoisted.erased = s.schemaMembers m.hoisted :=
    Model.schemaMembers_erase fun f member t target =>
      Model.keyOf_erased discernible (.tail' reached (.field member target))
  have root : m.reflected.schemaMembers m.hoisted.erased = m.schemaMembers m.hoisted := by
    rw [← members .refl]
    obtain ⟨name, description, fields, definitions⟩ := m
    rfl
  have definitions : (m.hoisted.erased.map fun entry =>
        (entry.1, Json.object (entry.2.schemaMembers m.hoisted.erased))) =
      m.hoisted.map fun entry => (entry.1, Json.object (entry.2.schemaMembers m.hoisted)) := by
    rw [Hoisted.erased, List.map_map, ← Hoisted.erased]
    apply List.map_congr_left
    intro entry member
    simp [members (Model.reaches_hoisted member)]
  have bare : m.hoisted.erased.isEmpty = m.hoisted.isEmpty := List.isEmpty_map
  rw [Model.toSchema, Model.toSchema, Model.hoisted_reflected discernible]
  simp only [root, definitions, bare]

theorem Model.length_hoisted_eq {a b : Model} (same : a.toSchema = b.toSchema) :
    a.hoisted.length = b.hoisted.length := by
  have definitions := a.find?_definitions
  rw [same, b.find?_definitions, Json.object.injEq] at definitions
  simpa using (congrArg List.length definitions).symm

theorem Model.discernible_of_toSchema_reflected {m : Model} (same : m.reflected.toSchema = m.toSchema) :
    m.Discernible := by
  have inside : m.reflected.hoisted.models ⊆ m.hoisted.models.map Model.erase := by
    intro t member
    obtain ⟨entry, among, rfl⟩ := List.mem_map.mp member
    obtain ⟨s, below, erased⟩ := Model.below_of_reflected (Model.below_hoisted among)
    rw [← erased]
    exact List.mem_map_of_mem (m.mem_hoisted below)
  have length : (m.hoisted.models.map Model.erase).length ≤ m.reflected.hoisted.models.length := by
    simp [Model.length_hoisted_eq same]
  have shared := (List.subperm_of_subset m.reflected.hoisted_grows.1.nodup_models inside).perm_of_length_le length
  have unique := shared.nodup_iff.mp m.reflected.hoisted_grows.1.nodup_models
  intro a b belowA belowB equal
  exact List.inj_on_of_nodup_map unique (m.mem_hoisted belowA) (m.mem_hoisted belowB) equal

/-- A model that was read back has the schema that it was read from, exactly if no two models below the first
were told apart by definitions only. -/
theorem Model.toSchema_reflected_iff (m : Model) : m.reflected.toSchema = m.toSchema ↔ m.Discernible :=
  ⟨Model.discernible_of_toSchema_reflected, Model.toSchema_reflected⟩

theorem Shape.direct_erase {s : Shape} (direct : s.Direct) : s.erase.Direct := by
  cases s with
  | scalar kind => trivial
  | model target => trivial
  | array item =>
    cases item with
    | model target => trivial
    | scalar kind => exact direct.elim
    | array inner => exact direct.elim

/-- What is read back can be written and read back as well. -/
theorem Model.Sound.reflected {m : Model} (sound : m.Sound) : m.reflected.Sound := by
  have erased {t : Model} (reached : m.Reaches t) :
      t.erase.Distinct ∧ (∀ f ∈ Field.eraseAll t.fields, f.shape.Direct) := by
    have names : (Field.eraseAll t.fields).map (·.name) = t.fields.map (·.name) := by
      simp [Field.eraseAll_eq_map, Field.erase, Function.comp_def]
    constructor
    · have distinct := sound.distinct t reached
      rw [Model.Distinct, ← names] at distinct
      cases t
      exact distinct
    · intro f member
      rw [Field.eraseAll_eq_map] at member
      obtain ⟨g, inside, rfl⟩ := List.mem_map.mp member
      exact Shape.direct_erase (sound.arrays t reached g inside)
  have below {t : Model} (reached : m.reflected.Reaches t) :
      t = m.reflected ∨ ∃ s, m.Below s ∧ s.erase = t :=
    (Relation.reflTransGen_iff_eq_or_transGen.mp reached).imp id Model.below_of_reflected
  have here := erased .refl
  refine ⟨fun t reached => ?_, fun t reached => ?_, fun t reached => ?_, fun t path => ?_⟩
  · rcases below reached with rfl | ⟨s, path, rfl⟩
    · cases m
      exact here.1
    · exact (erased path.to_reflTransGen).1
  · rcases below reached with rfl | ⟨s, path, rfl⟩
    · exact here.2
    · cases s
      exact (erased path.to_reflTransGen).2
  · rcases below reached with rfl | ⟨s, path, rfl⟩
    · intro d member
      obtain ⟨entry, inside, rfl⟩ := List.mem_map.mp member
      exact sound.hoisted inside
    · cases s
      exact fun _ member => absurd member List.not_mem_nil
  · obtain ⟨s, above, rfl⟩ := Model.below_of_reflected path
    have named := sound.names s above
    cases s
    exact named

end Schemata
