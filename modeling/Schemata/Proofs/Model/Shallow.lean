import Schemata.Proofs.Model.References
import Schemata.Proofs.Model.Scope

/-! Schemas with no definitions inside of definitions. Nothing of what such a schema describes is lost when it is
stored: each definition keeps its key and its place, as long as no two of them are equal, and what is read back
is the model itself. -/
namespace Schemata

open Json Reflection

/-- The schemas under `definitions` declare none themselves. -/
def Json.Shallow (schema : Json) : Prop :=
  ∀ d ∈ schema.membersUnder "definitions", d.2.membersUnder "definitions" = []

def Model.Shallow (m : Model) : Prop := ∀ d ∈ m.definitions, d.model.definitions = []

theorem forall_mem_of_forall₂ {α β : Type} {R : α → β → Prop} {P : β → Prop} {xs : List α} {ys : List β}
    (related : List.Forall₂ R xs ys) (holds : ∀ x y, R x y → P y) : ∀ y ∈ ys, P y := by
  induction related with
  | nil => nofun
  | cons first _ ih => exact List.forall_mem_cons.mpr ⟨holds _ _ first, ih⟩

namespace Reflection

theorem Declared.membersUnder {members declared : List (String × Json)} (declares : Declared members declared) :
    (Json.object members).membersUnder "definitions" = declared := by
  rcases declares with found | ⟨absent, rfl⟩
  · simp [Json.membersUnder, Json.get?, found]
  · simp [Json.membersUnder, Json.get?, absent]

variable {outer : Visible} {schema : Json} {m : Model}

theorem Describes.keys (describes : Describes outer schema m) :
    m.definitions.map (·.key) = (schema.membersUnder "definitions").map (·.1) := by
  cases describes with
  | schema _ _ _ declares keys => rw [declares.membersUnder, keys]

theorem Describes.declared (describes : Describes outer schema m) :
    List.Forall₂ (fun given d => d.key = given.1 ∧ ∃ around ⊆ m.definitions ++ outer, Describes around given.2 d.model)
      (schema.membersUnder "definitions") m.definitions := by
  cases describes with
  | @schema _ members declared properties title description required fields definitions _ _ _ declares keys each =>
    rw [declares.membersUnder]
    have length : declared.length = definitions.length := by simpa using (congrArg List.length keys).symm
    refine List.forall₂_of_length_eq_of_get length fun i here there => ?_
    have given : declared[i]? = some (declared.get ⟨i, here⟩) := List.getElem?_eq_getElem here
    have put : definitions[i]? = some (definitions.get ⟨i, there⟩) := List.getElem?_eq_getElem there
    generalize declared.get ⟨i, here⟩ = entry at given ⊢
    generalize definitions.get ⟨i, there⟩ = d at put ⊢
    obtain ⟨key, inner⟩ := entry
    obtain ⟨name, model⟩ := d
    obtain rfl : name = key := by simpa [given, put] using congrArg (·[i]?) keys
    exact ⟨rfl, _, append_subset_right (List.take_subset i definitions) outer, each i name inner model given put⟩

theorem Describes.shallow (describes : Describes outer schema m) (shallow : schema.Shallow) : m.Shallow := by
  have each := (List.forall₂_and_left _ _).mpr ⟨shallow, describes.declared⟩
  refine forall_mem_of_forall₂ each ?_
  rintro given d ⟨bare, -, around, -, inner⟩
  have none := inner.keys
  rw [bare, List.map_nil] at none
  exact List.map_eq_nil_iff.mp none

end Reflection

theorem Json.nodup_membersUnder {schema : Json} (unique : schema.Unrepeated) (key : String) :
    ((schema.membersUnder key).map (·.1)).Nodup := by
  unfold Json.membersUnder
  split
  · rename_i members given
    cases schema with
    | object outside => exact (unrepeatedMembers_iff.mp unique.2 _ (mem_of_find? given)).1
    | _ => cases given
  · exact List.nodup_nil

theorem Shape.erase_of_target {s : Shape} (same : ∀ t, s.target? = some t → t.erase = t) : s.erase = s := by
  fun_induction Shape.target? s with
  | case1 => rfl
  | case2 target => rw [Shape.erase, same target rfl]
  | case3 item ih => rw [Shape.erase, ih same]

theorem Field.eraseAll_of_target {fs : List Field}
    (same : ∀ f ∈ fs, ∀ t, f.shape.target? = some t → t.erase = t) : Field.eraseAll fs = fs := by
  induction fs with
  | nil => rfl
  | cons f rest ih =>
    obtain ⟨name, shape, required⟩ := f
    rw [Field.eraseAll, Shape.erase_of_target (same _ List.mem_cons_self),
      ih fun f member => same f (List.mem_cons_of_mem _ member)]

theorem Definition.Scoped.erase_model {ds : List Definition} {outer : List Model}
    (closed : Definition.Scoped outer ds) (bare : ∀ d ∈ ds, d.model.definitions = [])
    (around : ∀ t ∈ outer, t.erase = t) : ∀ d ∈ ds, d.model.erase = d.model := by
  induction ds generalizing outer with
  | nil => exact fun _ member => absurd member List.not_mem_nil
  | cons first rest ih =>
    obtain ⟨key, name, description, fields, definitions⟩ := first
    obtain ⟨⟨-, -, seen⟩, later⟩ := closed
    obtain rfl : definitions = [] := bare _ List.mem_cons_self
    have here : (⟨name, description, fields, []⟩ : Model).erase = ⟨name, description, fields, []⟩ := by
      rw [Model.erase, Field.eraseAll_of_target]
      intro f member t target
      exact around t (by simpa using (seen f member).2 t target)
    refine List.forall_mem_cons.mpr ⟨here, ih later (fun d member => bare d (List.mem_cons_of_mem _ member)) ?_⟩
    intro t among
    rcases List.mem_append.mp among with outside | last
    · exact around t outside
    · rw [List.mem_singleton.mp last]
      exact here

theorem Model.Scoped.known {m : Model} {outer : List Model} (closed : m.Scoped outer) :
    ∀ f ∈ m.fields, ∀ t, f.shape.target? = some t → t ∈ outer ++ m.definitions.map (·.model) := by
  obtain ⟨name, description, fields, definitions⟩ := m
  exact fun f member => (closed.2.2 f member).2

theorem Model.Scoped.declares {m : Model} {outer : List Model} (closed : m.Scoped outer) :
    Definition.Scoped outer m.definitions := by
  cases m
  exact closed.1

/-- A model that has no definitions leads to those around it only. -/
theorem Model.Scoped.leads {m t : Model} {outer : List Model} (closed : m.Scoped outer) (bare : m.definitions = [])
    (leads : m.Leads t) : t ∈ outer := by
  obtain ⟨key, offers⟩ := leads
  cases offers with
  | definition member =>
    rw [bare] at member
    cases member
  | field member target => simpa [bare] using closed.known _ member t target

def Definition.entry (d : Definition) : String × Model := (d.key, d.model)

/-- Definitions that have none themselves add one entry each, under their keys and in their order, if there is
nothing twice among all of them. -/
theorem Definition.hoistAll_bare {ds : List Definition} {before entries : Hoisted}
    (closed : Definition.Scoped before.models ds) (bare : ∀ d ∈ ds, d.model.definitions = [])
    (keys : entries.keys.Nodup) (models : entries.models.Nodup)
    (parts : entries = before ++ ds.map Definition.entry) : Definition.hoistAll before ds = entries := by
  induction ds generalizing before with
  | nil => simpa [Definition.hoistAll] using parts.symm
  | cons first rest ih =>
    obtain ⟨key, model⟩ := first
    obtain ⟨here, later⟩ := closed
    have added : model.hoist key before = before ++ [(key, model)] :=
      Model.hoist_new (Hoisted.nodup_before models parts).2 (Hoisted.nodup_before keys parts).2
        fun _ => here.leads (bare _ List.mem_cons_self)
    rw [Definition.hoistAll, added]
    refine ih ?_ (fun d member => bare d (List.mem_cons_of_mem _ member)) ?_
    · simpa using later
    · simpa [Definition.entry] using parts

section
variable {m : Model} (closed : m.Scoped []) (shallow : m.Shallow) (keys : (m.definitions.map (·.key)).Nodup)
  (models : (m.definitions.map (·.model)).Nodup)
include closed shallow keys models

/-- The entries of a model are its definitions, since its fields lead to these only. -/
theorem Model.hoisted_shallow : m.hoisted = m.definitions.map Definition.entry := by
  have declared : Definition.hoistAll [] m.definitions = m.definitions.map Definition.entry := by
    refine Definition.hoistAll_bare closed.declares shallow ?_ ?_ rfl
    · simpa [Function.comp_def, Definition.entry] using keys
    · simpa [Function.comp_def, Definition.entry] using models
  rw [Model.hoisted, declared]
  refine Field.hoistAll_of_mem fun f member t target => ?_
  simpa [Function.comp_def, Definition.entry] using closed.known f member t target

theorem Model.reflected_shallow : m.reflected = m := by
  have inner : ∀ d ∈ m.definitions, d.model.erase = d.model := closed.declares.erase_model shallow nofun
  have fields : Field.eraseAll m.fields = m.fields := by
    refine Field.eraseAll_of_target fun f member t target => ?_
    obtain ⟨d, declared, rfl⟩ := List.mem_map.mp (closed.known f member t target)
    exact inner d declared
  have definitions : readBack (m.definitions.map Definition.entry) = m.definitions := by
    rw [readBack, List.map_map]
    conv_rhs => rw [← List.map_id m.definitions]
    refine List.map_congr_left fun d member => ?_
    have same := inner d member
    cases d
    simp [Definition.entry, same]
  rw [Model.reflected, Model.hoisted_shallow closed shallow keys models, fields, definitions]
  cases m
  rfl

end

/-- What a schema without definitions inside of definitions describes is stored without loss. If pointers can
have the keys of the definitions, and no two of these describe the same model, then the model's own schema is
read back as the model, with its definitions under the keys that they were declared under, in that order. -/
theorem Model.described_survives_storage {schema : Json} {m : Model} (unique : schema.Unrepeated)
    (shallow : schema.Shallow) (described : Model.ofSchema schema = .ok m)
    (keys : ∀ d ∈ schema.membersUnder "definitions", PointerKey d.1)
    (different : (m.definitions.map (·.model)).Nodup) :
    Model.ofSchema m.toSchema = .ok m ∧
      m.definitions.map (·.key) = (schema.membersUnder "definitions").map (·.1) ∧
      ∀ back, Model.ofSchema m.toSchema = .ok back → back.handle = m.handle := by
  have describes : Describes [] schema m := describes_of_reflectIn described
  have closed : m.Scoped [] := describes.scoped unique
  have bare : m.Shallow := describes.shallow shallow
  have around := closed.reached fun _ outside => absurd outside List.not_mem_nil
  have declared : (m.definitions.map (·.key)).Nodup := by
    rw [describes.keys]
    exact nodup_membersUnder unique _
  have pointable : m.Pointable := by
    refine Model.pointable_of_hoisted fun entry inside => ?_
    rw [Model.hoisted_shallow closed bare declared different] at inside
    obtain ⟨d, member, rfl⟩ := List.mem_map.mp inside
    have named : d.key ∈ m.definitions.map (·.key) := List.mem_map_of_mem member
    rw [describes.keys] at named
    obtain ⟨given, among, same⟩ := List.mem_map.mp named
    rw [Definition.entry, ← same]
    exact keys given among
  have read : Model.ofSchema m.toSchema = .ok m := by
    have reflected := pointable.ofSchema_toSchema (fun u reached => (around u reached).1)
      fun u reached => (around u reached).2
    rwa [Model.reflected_shallow closed bare declared different] at reflected
  refine ⟨read, describes.keys, fun back success => ?_⟩
  rw [read] at success
  cases success
  rfl

/-- A schema with definitions that refer to earlier ones; the titles are the keys of others. -/
def Json.sampleShop : Json :=
  let reference (key : String) : Json := .object [("$ref", .string ("#/definitions/" ++ key))]
  let inner (title : String) (properties : List (String × Json)) : Json :=
    .object [("title", .string title), ("type", .string "object"), ("properties", .object properties)]
  .object [("title", .string "Shop"), ("type", .string "object"),
    ("definitions", .object [
      ("Item", inner "Order" [("id", .object [("type", .string "integer")])]),
      ("Order", inner "Item" [("item", reference "Item")]),
      ("Shop", inner "Item" [("orders", .object [("type", .string "array"), ("items", reference "Order")]),
        ("item", reference "Item")])]),
    ("properties", .object [("shop", reference "Shop"), ("spare", reference "Item")]),
    ("required", .array [.string "shop"])]

def Model.sampleShop : Model :=
  let item := (Model.named "Order").addField "id" (.scalar .int) false
  let order := (Model.named "Item").addField "item" (.model item) false
  let shop := ((Model.named "Item").addField "orders" (.array (.model order)) false).addField "item" (.model item)
    false
  (((((Model.named "Shop").addDefinition "Item" item).addDefinition "Order" order).addDefinition "Shop"
    shop).addField "shop" (.model shop) true).addField "spare" (.model item) false

theorem Model.sampleShop_survives : Json.sampleShop.Unrepeated ∧ Json.sampleShop.Shallow ∧
    Model.ofSchema Json.sampleShop = .ok Model.sampleShop ∧
    (∀ d ∈ Json.sampleShop.membersUnder "definitions", PointerKey d.1) ∧
    (Model.sampleShop.definitions.map (·.model)).Nodup ∧
    Model.ofSchema Model.sampleShop.toSchema = .ok Model.sampleShop ∧
    Model.sampleShop.definitions.map (·.key) = ["Item", "Order", "Shop"] ∧
    ∀ back, Model.ofSchema Model.sampleShop.toSchema = .ok back → back.handle = Model.sampleShop.handle := by
  have unique : Json.sampleShop.Unrepeated := by
    simp [Json.sampleShop, Unrepeated, UnrepeatedMembers, UnrepeatedItems]
  have shallow : Json.sampleShop.Shallow := by
    simp [Json.sampleShop, Json.Shallow, Json.membersUnder, Json.get?, find?]
  have described : Model.ofSchema Json.sampleShop = .ok Model.sampleShop := rfl
  have keys : ∀ d ∈ Json.sampleShop.membersUnder "definitions", PointerKey d.1 := by decide +kernel
  have different : (Model.sampleShop.definitions.map (·.model)).Nodup := by decide +kernel
  exact ⟨unique, shallow, described, keys, different,
    Model.described_survives_storage unique shallow described keys different⟩

end Schemata
