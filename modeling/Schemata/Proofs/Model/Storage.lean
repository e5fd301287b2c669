import Schemata.Proofs.Binding
import Schemata.Proofs.Model.Erasure
import Schemata.Proofs.Model.Grammar

/-! Schema documents read back. The writer finds a model's key by comparing models, the reader finds a
model by its key among the entries already read; they agree because keys are unique and every entry stands
after all that it leads to. -/
namespace Schemata

namespace Reflection

/-- What the reader has made of some entries. -/
def readBack (entries : Hoisted) : List Definition := entries.map fun entry => ⟨entry.1, entry.2.erase⟩

theorem find?_readBack {entries : Hoisted} (unique : entries.keys.Nodup) {entry : String × Model}
    (member : entry ∈ entries) :
    (readBack entries).find? (fun d => d.key = entry.1) = some ⟨entry.1, entry.2.erase⟩ := by
  induction entries with
  | nil => cases member
  | cons first rest ih =>
    obtain ⟨alone, unique'⟩ := List.nodup_cons.mp unique
    rcases List.mem_cons.mp member with rfl | member
    · simp [readBack]
    · have inside : entry.1 ∈ rest.map (·.1) := List.mem_map_of_mem member
      have apart : first.1 ≠ entry.1 := by
        intro same
        rw [← same] at inside
        exact alone inside
      simpa [readBack, apart] using ih unique' member

theorem keyOf_of_mem {before : Hoisted} (after : Hoisted) {t : Model} (member : t ∈ before.models) :
    ∃ entry ∈ before, entry.2 = t ∧ Hoisted.keyOf (before ++ after) t = entry.1 := by
  cases found : before.find? fun entry => entry.2 = t with
  | none =>
    obtain ⟨entry, inside, same⟩ := List.mem_map.mp member
    exact absurd same (by simpa using List.find?_eq_none.mp found entry inside)
  | some entry =>
    refine ⟨entry, List.mem_of_find?_eq_some found, by simpa using List.find?_some found, ?_⟩
    simp [Hoisted.keyOf, List.find?_append, found]

section
variable {before : Hoisted} (after : Hoisted) (unique : before.keys.Nodup)
include unique

/-- A reference to a model with an entry among those read resolves to that model without definitions, if a
pointer can have its key. -/
theorem resolve_keyOf {t : Model} (member : t ∈ before.models)
    (good : PointerKey (Hoisted.keyOf (before ++ after) t)) :
    resolve (readBack before) (.string (definitionsPointer ++ Hoisted.keyOf (before ++ after) t)) =
      .ok t.erase := by
  obtain ⟨entry, inside, rfl, key⟩ := keyOf_of_mem after member
  rw [key] at good
  simp [resolve, key, pointerKey?_eq_some_iff.mpr ⟨good, rfl⟩, find?_readBack unique inside]

theorem propertyShape_schema {s : Shape} (name : String) (direct : s.Direct)
    (known : ∀ t, s.target? = some t → t ∈ before.models)
    (good : ∀ t, s.target? = some t → PointerKey (Hoisted.keyOf (before ++ after) t)) :
    propertyShape (readBack before) name (s.schema (before ++ after)) = .ok s.erase := by
  cases s with
  | scalar kind =>
    cases kind <;> simp [Shape.schema, propertyShape, Json.find?, Scalar.keyword, Shape.erase]
  | model t =>
    have resolved := resolve_keyOf after unique (known t rfl) (good t rfl)
    simp [Shape.schema, propertyShape, Json.find?, Shape.erase, resolved]
  | array item =>
    cases item with
    | model t =>
      have resolved := resolve_keyOf after unique (known t rfl) (good t rfl)
      simp [Shape.schema, propertyShape, arrayShape, Json.find?, Shape.erase, resolved]
    | scalar kind => exact direct.elim
    | array item => exact direct.elim

theorem fields_schema (required : List String) {fs : List Field} (direct : ∀ f ∈ fs, f.shape.Direct)
    (known : ∀ f ∈ fs, ∀ t, f.shape.target? = some t → t ∈ before.models)
    (good : ∀ f ∈ fs, ∀ t, f.shape.target? = some t → PointerKey (Hoisted.keyOf (before ++ after) t)) :
    fields (readBack before) required (fs.map fun f => (f.name, f.shape.schema (before ++ after))) =
      .ok (fs.map fun f => ⟨f.name, f.shape.erase, f.name ∈ required⟩) := by
  induction fs with
  | nil => rfl
  | cons f rest ih =>
    have first := propertyShape_schema after unique f.name (direct f List.mem_cons_self)
      (known f List.mem_cons_self) (good f List.mem_cons_self)
    have later := ih (fun g member => direct g (List.mem_cons_of_mem _ member))
      (fun g member => known g (List.mem_cons_of_mem _ member))
      (fun g member => good g (List.mem_cons_of_mem _ member))
    simp [fields, first, later]

end

end Reflection

theorem Model.mem_requiredNames {m : Model} (distinct : m.Distinct) {f : Field} (member : f ∈ m.fields) :
    f.name ∈ m.requiredNames ↔ f.required = true := by
  simp only [Model.requiredNames, List.mem_map, List.mem_filter]
  constructor
  · rintro ⟨g, ⟨inside, required⟩, same⟩
    rwa [List.inj_on_of_nodup_map distinct member inside same.symm]
  · intro required
    exact ⟨f, ⟨member, required⟩, rfl⟩

namespace Model

variable (m : Model) (entries : Hoisted)

theorem find?_title (more : List (String × Json)) :
    Json.find? "title" (m.schemaMembers entries ++ more) = some (.string m.name) := by
  simp [schemaMembers, Json.find?]

theorem find?_type (more : List (String × Json)) :
    Json.find? "type" (m.schemaMembers entries ++ more) = some (.string "object") := by
  cases described : m.description <;> simp [schemaMembers, Json.optional, Json.find?, described]

theorem find?_description {more : List (String × Json)} (free : Json.find? "description" more = none) :
    (Json.find? "description" (m.schemaMembers entries ++ more)).bind Json.string? = m.description := by
  cases described : m.description <;> cases required : m.requiredNames <;>
    simp [schemaMembers, Json.optional, Json.find?, Json.string?, described, required, free]

/-- Of fields with one name the last one is described. -/
theorem find?_properties_distinct (more : List (String × Json)) :
    Json.find? "properties" (m.schemaMembers entries ++ more) =
      some (.object (Json.distinct (m.fields.map fun f => (f.name, f.shape.schema entries)))) := by
  cases described : m.description <;> simp [schemaMembers, Json.optional, Json.find?, described]

theorem find?_properties (distinct : m.Distinct) (more : List (String × Json)) :
    Json.find? "properties" (m.schemaMembers entries ++ more) =
      some (.object (m.fields.map fun f => (f.name, f.shape.schema entries))) := by
  have unique : ((m.fields.map fun f => (f.name, f.shape.schema entries)).map (·.1)).Nodup := by
    simpa [Model.Distinct, Function.comp_def] using distinct
  rw [find?_properties_distinct, Json.distinct_of_nodup unique]

theorem requiredNames_schema {more : List (String × Json)} (free : Json.find? "required" more = none) :
    Reflection.requiredNames m.name (m.schemaMembers entries ++ more) = .ok m.requiredNames := by
  apply Reflection.requiredNames_eq_ok_iff.mpr
  cases described : m.description <;> cases required : m.requiredNames <;>
    simp [Reflection.Required, schemaMembers, Json.optional, Json.find?, described, required, free]

end Model

namespace Reflection

theorem find?_definitions_schemaMembers (m : Model) (entries : Hoisted) :
    Json.find? "definitions" (m.schemaMembers entries) = none := by
  cases described : m.description <;> cases required : m.requiredNames <;>
    simp [Model.schemaMembers, Json.optional, Json.find?, described, required]

section
variable {before : Hoisted} (after : Hoisted) (unique : before.keys.Nodup)
include unique

/-- A written model is read as itself without definitions, when those that are visible come from the
entries of all that its fields lead to, under keys that pointers can have. -/
theorem reflectIn_schemaMembers {m : Model} (distinct : m.Distinct)
    (direct : ∀ f ∈ m.fields, f.shape.Direct)
    (known : ∀ f ∈ m.fields, ∀ t, f.shape.target? = some t → t ∈ before.models)
    (good : ∀ f ∈ m.fields, ∀ t, f.shape.target? = some t →
      PointerKey (Hoisted.keyOf (before ++ after) t))
    (outer : Visible) {definitions : List Definition} (more : List (String × Json))
    (undescribed : Json.find? "description" more = none) (optional : Json.find? "required" more = none)
    (declared : definitionsMember outer m.name more = .ok definitions)
    (visible : definitions ++ outer = readBack before) :
    reflectIn outer (.object (m.schemaMembers (before ++ after) ++ more)) =
      .ok ⟨m.name, m.description, Field.eraseAll m.fields, definitions⟩ := by
  have title : objectTitle (m.schemaMembers (before ++ after) ++ more) = .ok m.name := by
    simp [objectTitle, m.find?_title, m.find?_type]
  have inner : definitionsMember outer m.name (m.schemaMembers (before ++ after) ++ more) =
      .ok definitions := by
    rw [← declared, definitionsMember_eq, definitionsMember_eq, Json.find?_append,
      find?_definitions_schemaMembers, Option.none_or]
  have shapes : (m.fields.map fun f => (⟨f.name, f.shape.erase, f.name ∈ m.requiredNames⟩ : Field)) =
      Field.eraseAll m.fields := by
    rw [Field.eraseAll_eq_map]
    apply List.map_congr_left
    intro f member
    simp [Field.erase, Model.mem_requiredNames distinct member]
  have read : schemaFields (readBack before) m.name (m.schemaMembers (before ++ after) ++ more) =
      .ok (Field.eraseAll m.fields) := by
    rw [schemaFields, m.find?_properties _ distinct]
    simp only [m.requiredNames_schema _ optional]
    rw [fields_schema after unique m.requiredNames direct known good, shapes]
  rw [reflectIn, title]
  simp only [inner]
  rw [visible, read, m.find?_description _ undescribed]

end

theorem declare_entries {entries : Hoisted} (unique : entries.keys.Nodup)
    (good : ∀ entry ∈ entries, ∀ f ∈ entry.2.fields, ∀ t, f.shape.target? = some t →
      PointerKey (entries.keyOf t))
    (distinct : ∀ entry ∈ entries, entry.2.Distinct)
    (direct : ∀ entry ∈ entries, ∀ f ∈ entry.2.fields, f.shape.Direct)
    (ordered : ∀ before entry after, entries = before ++ entry :: after →
      ∀ t, entry.2.Leads t → t ∈ Hoisted.models before)
    (before after : Hoisted) (parts : entries = before ++ after) :
    declare [] (readBack before)
      (after.map fun entry => (entry.1, .object (entry.2.schemaMembers entries))) =
        .ok (readBack entries) := by
  induction after generalizing before with
  | nil => simp [declare, parts]
  | cons entry rest ih =>
    have inside : entry ∈ entries := by simp [parts]
    have uniqueBefore : before.keys.Nodup := (Hoisted.nodup_before unique parts).1
    have known : ∀ f ∈ entry.2.fields, ∀ t, f.shape.target? = some t → t ∈ before.models :=
      fun f member t target => ordered before entry rest parts t (.field member target)
    have first := reflectIn_schemaMembers (entry :: rest) uniqueBefore (distinct entry inside)
      (direct entry inside) known (parts ▸ good entry inside) (readBack before ++ []) [] rfl rfl rfl (by simp)
    rw [List.append_nil, List.append_nil, ← parts] at first
    have later := ih (before ++ [entry]) (by simp [parts])
    rw [readBack, List.map_append, ← readBack] at later
    simp only [List.map_cons, declare, List.append_nil, first]
    have erased : (⟨entry.2.name, entry.2.description, Field.eraseAll entry.2.fields, []⟩ : Model) =
        entry.2.erase := by
      cases entry.2
      simp [Model.erase]
    rw [erased]
    exact later

end Reflection

theorem Model.find?_definitions (m : Model) : (m.toSchema.get? "definitions").getD (.object []) =
    .object (m.hoisted.map fun entry => (entry.1, .object (entry.2.schemaMembers m.hoisted))) := by
  rw [Model.toSchema, Json.get?, Json.find?_append, Reflection.find?_definitions_schemaMembers]
  cases m.hoisted <;> rfl

/-- What reflection makes of a model's schema: the model without the definitions inside of what its fields
hold, and with all of its entries as definitions. -/
def Model.reflected (m : Model) : Model :=
  ⟨m.name, m.description, Field.eraseAll m.fields, Reflection.readBack m.hoisted⟩

theorem Model.bind_reflected (m : Model) (payload : Json) : m.reflected.bind payload = m.bind payload := by
  apply Model.bind_eq_of_erase_eq
  cases m
  simp [Model.reflected, Model.erase, Field.eraseAll_eraseAll]

/-- Every reference in the schema of a model has a key that a pointer can have. -/
def Model.Pointable (m : Model) : Prop :=
  ∀ s, m.Reaches s → ∀ f ∈ s.fields, ∀ t, f.shape.target? = some t → PointerKey (m.hoisted.keyOf t)

theorem Model.Pointable.ofSchema_toSchema {m : Model} (pointable : m.Pointable) (distinct : m.AllDistinct)
    (direct : ∀ t, m.Reaches t → ∀ f ∈ t.fields, f.shape.Direct) :
    Model.ofSchema m.toSchema = .ok m.reflected := by
  obtain ⟨grows, leads⟩ := m.hoisted_grows
  have declared := Reflection.declare_entries grows.nodup_keys
    (fun entry member => pointable _ (Model.reaches_hoisted member))
    (fun entry member => distinct _ (Model.reaches_hoisted member))
    (fun entry member => direct _ (Model.reaches_hoisted member))
    (fun before entry after parts t => grows.ordered parts) [] m.hoisted rfl
  have more : Reflection.definitionsMember [] m.name
      (if m.hoisted.isEmpty then []
       else [("definitions", .object (m.hoisted.map fun entry =>
          (entry.1, .object (entry.2.schemaMembers m.hoisted))))]) =
        .ok (Reflection.readBack m.hoisted) := by
    split
    · rename_i none
      rw [List.isEmpty_iff.mp none]
      rfl
    · rw [Reflection.definitionsMember, if_pos rfl]
      exact declared
  have root := Reflection.reflectIn_schemaMembers [] grows.nodup_keys distinct.here (direct m .refl)
    (fun f member t target => leads t (.field member target))
    (fun f member t target => by rw [List.append_nil]; exact pointable m .refl f member t target)
    [] _ (by split <;> rfl) (by split <;> rfl) more (List.append_nil _)
  rw [List.append_nil] at root
  exact root

theorem Model.pointable_of_hoisted {m : Model} (keys : ∀ entry ∈ m.hoisted, PointerKey entry.1) : m.Pointable := by
  intro s reached f member t target
  obtain ⟨entry, inside, -, key⟩ := Reflection.keyOf_of_mem [] (m.mem_hoisted (.tail' reached (.field member target)))
  rw [List.append_nil] at key
  rw [key]
  exact keys entry inside

theorem Model.Sound.pointable {m : Model} (sound : m.Sound) : m.Pointable :=
  Model.pointable_of_hoisted fun _ inside => sound.hoisted inside

theorem Model.ofSchema_toSchema {m : Model} (sound : m.Sound) : Model.ofSchema m.toSchema = .ok m.reflected :=
  sound.pointable.ofSchema_toSchema sound.distinct sound.arrays

/-- The schema of a sound model is reflected as a model with its name, its description and its fields,
those inside of them without definitions, and it binds every payload as the model itself does. -/
theorem Model.reflects_back (m : Model) (sound : m.Sound) :
    ∃ back, Model.ofSchema m.toSchema = .ok back ∧ back.name = m.name ∧
      back.description = m.description ∧ back.fields = Field.eraseAll m.fields ∧
      ∀ payload, back.bind payload = m.bind payload := by
  refine ⟨m.reflected, Model.ofSchema_toSchema sound, rfl, rfl, rfl, ?_⟩
  intro payload
  exact m.bind_reflected payload

/-- Three different models of one name: one declared under another key and again inside of the second, one
in an array, and one that has to be numbered. -/
def Model.sampleOrder : Model :=
  let byId := (Model.named "Item").addField "id" (.scalar .int) true
  let byCode := (((Model.named "Item").addDefinition "Code" byId).addField "code" (.model byId) true).addField
    "label" (.scalar .string) false
  ((((Model.named "Order").describe "Goods ordered together").addDefinition "First" byId).addField
    "items" (.array (.model byCode)) true).addField "extra" (.model (.named "Item")) false

theorem Model.sampleOrder_reflects_back : Model.sampleOrder.Sound ∧
    ∃ back, Model.ofSchema Model.sampleOrder.toSchema = .ok back ∧
      back.name = Model.sampleOrder.name ∧ back.description = Model.sampleOrder.description ∧
      back.fields = Field.eraseAll Model.sampleOrder.fields ∧
      ∀ payload, back.bind payload = Model.sampleOrder.bind payload :=
  ⟨by decide +kernel, Model.sampleOrder.reflects_back (by decide +kernel)⟩

end Schemata
