import Mathlib.Data.List.Perm.Basic
import Mathlib.Logic.Relation
import Schemata.Proofs.Model.Grammar

/-! What reflection does not see. In a schema and in a property only some keywords count, in any order; others may come
and go wherever a schema or a property stands, and the outcome is the same, model or error. The order of the
definitions and of the properties does count, and so does all that is in the items of an array. -/
namespace Schemata

open Json (find?)

namespace Reflection

def schemaKeywords : List String := ["title", "type", "description", "definitions", "properties", "required"]

def propertyKeywords : List String := ["type", "items", "$ref"]

/-- The members of an object change places, or one comes in under a keyword that does not count. -/
inductive MembersEdit (keywords : List String) : List (String × Json) → List (String × Json) → Prop where
  | reorder {members others : List (String × Json)} : members.Perm others → (members.map (·.1)).Nodup →
      MembersEdit keywords members others
  | add (front back : List (String × Json)) {key : String} (v : Json) : key ∉ keywords →
      MembersEdit keywords (front ++ back) (front ++ (key, v) :: back)

/-- A place in a schema, under a key of the object that one of its keywords has. -/
structure Place where
  front : List (String × Json)
  back : List (String × Json)
  before : List (String × Json)
  after : List (String × Json)
  key : String

def Place.fill (keyword : String) (place : Place) (v : Json) : List (String × Json) :=
  place.front ++ (keyword, .object (place.before ++ (place.key, v) :: place.after)) :: place.back

/-- A change to a schema, in its own members, in a property, or in a schema under its definitions. -/
inductive Edit : Json → Json → Prop where
  | schema {members others : List (String × Json)} : MembersEdit schemaKeywords members others →
      Edit (.object members) (.object others)
  | property (place : Place) {members others : List (String × Json)} : MembersEdit propertyKeywords members others →
      Edit (.object (place.fill "properties" (.object members))) (.object (place.fill "properties" (.object others)))
  | definition (place : Place) {schema other : Json} : Edit schema other →
      Edit (.object (place.fill "definitions" schema)) (.object (place.fill "definitions" other))

theorem MembersEdit.find?_eq {keywords : List String} {members others : List (String × Json)}
    (edit : MembersEdit keywords members others) {key : String} (counts : key ∈ keywords) :
    find? key members = find? key others := by
  cases edit with
  | reorder permuted unique =>
    have unique' : (others.map (·.1)).Nodup := (permuted.map _).nodup_iff.mp unique
    ext v
    rw [Json.find?_eq_some_iff_of_nodup unique, Json.find?_eq_some_iff_of_nodup unique', permuted.mem_iff]
  | @add front back other v unnamed =>
    have apart : other ≠ key := fun same => unnamed (same ▸ counts)
    simp [Json.find?_append, find?, apart]

namespace Place

variable {keyword : String} (place : Place) (v w : Json)

theorem find?_fill_other {key : String} (apart : key ≠ keyword) :
    find? key (place.fill keyword v) = find? key (place.fill keyword w) := by
  simp [fill, Json.find?_append, find?, Ne.symm apart]

/-- The value is in the object that the keyword has, unless the keyword is given before. -/
theorem find?_fill : find? keyword (place.fill keyword v) = find? keyword (place.fill keyword w) ∨
    ∀ u, find? keyword (place.fill keyword u) = some (.object (place.before ++ (place.key, u) :: place.after)) := by
  cases given : find? keyword place.front with
  | none => exact .inr fun u => by simp [fill, Json.find?_append, find?, given]
  | some u => exact .inl (by simp [fill, Json.find?_append, given])

end Place

theorem reflectIn_congr (outer : Visible) {members others : List (String × Json)}
    (title : find? "title" members = find? "title" others) (type : find? "type" members = find? "type" others)
    (description : find? "description" members = find? "description" others)
    (definitions : ∀ title, definitionsMember outer title members = definitionsMember outer title others)
    (fields : ∀ visible title, schemaFields visible title members = schemaFields visible title others) :
    reflectIn outer (.object members) = reflectIn outer (.object others) := by
  have titled : objectTitle members = objectTitle others := by rw [objectTitle, objectTitle, title, type]
  simp only [reflectIn, titled, definitions, fields, description]

theorem definitionsMember_congr (outer : Visible) (title : String) {members others : List (String × Json)}
    (same : find? "definitions" members = find? "definitions" others) :
    definitionsMember outer title members = definitionsMember outer title others := by
  rw [definitionsMember_eq, definitionsMember_eq, same]

theorem schemaFields_congr (visible : Visible) (title : String) {members others : List (String × Json)}
    (properties : find? "properties" members = find? "properties" others)
    (required : find? "required" members = find? "required" others) :
    schemaFields visible title members = schemaFields visible title others := by
  simp only [schemaFields, requiredNames, properties, required]

theorem propertyShape_congr (visible : Visible) (name : String) {members others : List (String × Json)}
    (same : ∀ key ∈ propertyKeywords, find? key members = find? key others) :
    propertyShape visible name (.object members) = propertyShape visible name (.object others) := by
  have type := same "type" (by simp [propertyKeywords])
  have items := same "items" (by simp [propertyKeywords])
  have pointer := same "$ref" (by simp [propertyKeywords])
  simp only [propertyShape, type, items, pointer]

theorem fields_congr {visible : Visible} {required : List String} (before after : List (String × Json)) {key : String}
    {v w : Json} (same : ∀ name, propertyShape visible name v = propertyShape visible name w) :
    fields visible required (before ++ (key, v) :: after) = fields visible required (before ++ (key, w) :: after) := by
  induction before with
  | nil => simp only [List.nil_append, fields, same]
  | cons first rest ih =>
    obtain ⟨name, info⟩ := first
    simp only [List.cons_append, fields, ih]

theorem declare_congr {outer : Visible} (before after : List (String × Json)) {key : String} {v w : Json}
    (same : ∀ outer, reflectIn outer v = reflectIn outer w) (seen : List Definition) :
    declare outer seen (before ++ (key, v) :: after) = declare outer seen (before ++ (key, w) :: after) := by
  induction before generalizing seen with
  | nil => simp only [List.nil_append, declare, same]
  | cons first rest ih =>
    obtain ⟨name, schema⟩ := first
    simp only [List.cons_append, declare, ih]

theorem Edit.reflectIn_eq {schema other : Json} (edit : Edit schema other) (outer : Visible) :
    reflectIn outer schema = reflectIn outer other := by
  induction edit generalizing outer with
  | schema edit =>
    have same : ∀ key ∈ schemaKeywords, _ := fun key counts => edit.find?_eq counts
    simp only [schemaKeywords, List.forall_mem_cons] at same
    obtain ⟨title, type, description, definitions, properties, required, -⟩ := same
    exact reflectIn_congr outer title type description (fun name => definitionsMember_congr outer name definitions)
      fun visible name => schemaFields_congr visible name properties required
  | @property place members others edit =>
    have other (key : String) (apart : key ≠ "properties") :=
      place.find?_fill_other (.object members) (.object others) apart
    have definitions := other "definitions" (by decide)
    have required := other "required" (by decide)
    refine reflectIn_congr outer (other "title" (by decide)) (other "type" (by decide)) (other "description" (by decide))
      (fun name => definitionsMember_congr outer name definitions) fun visible name => ?_
    rcases place.find?_fill (.object members) (.object others) with same | found
    · exact schemaFields_congr visible name same required
    · have shapes (property : String) := propertyShape_congr visible property fun key counts => edit.find?_eq counts
      simp only [schemaFields, requiredNames, found, required, fields_congr place.before place.after shapes]
  | @definition place schema other _ ih =>
    have elsewhere (key : String) (apart : key ≠ "definitions") := place.find?_fill_other schema other apart
    have properties := elsewhere "properties" (by decide)
    have required := elsewhere "required" (by decide)
    refine reflectIn_congr outer (elsewhere "title" (by decide)) (elsewhere "type" (by decide))
      (elsewhere "description" (by decide)) (fun name => ?_)
      fun visible name => schemaFields_congr visible name properties required
    rcases place.find?_fill schema other with same | found
    · exact definitionsMember_congr outer name same
    · simp only [definitionsMember_eq, found, declare_congr place.before place.after ih]

end Reflection

open Reflection

/-- Schemas that are led into each other by such changes describe the same model, or fail for the same reason. -/
theorem Model.ofSchema_unseen {schema other : Json} (changed : Relation.EqvGen Edit schema other) :
    Model.ofSchema schema = Model.ofSchema other := by
  induction changed with
  | rel schema other edit => exact edit.reflectIn_eq []
  | refl schema => rfl
  | symm schema other _ ih => exact ih.symm
  | trans schema between other _ _ first second => exact first.trans second

def Json.sampleTitle (title : String) : List (String × Json) :=
  [("title", .string title), ("type", .string "object")]

def Json.sampleItem : List (String × Json) := sampleTitle "Item" ++ [("properties", .object [])]

def Json.sampleItems : List (String × Json) :=
  [("type", .string "array"), ("items", .object [("$ref", .string "#/definitions/Item")])]

def Json.sampleBasket (item items : List (String × Json)) : List (String × Json) :=
  sampleTitle "Basket" ++
    [("definitions", .object [("Item", .object item)]), ("properties", .object [("items", .object items)])]

/-- With keywords that do not count, and from back to front. -/
def Json.sampleNoted : List (String × Json) :=
  (("$schema", .string "draft-04") ::
    sampleBasket (("additionalProperties", .bool false) :: sampleItem) (("maxItems", .ofWord 9) :: sampleItems)).reverse

theorem Model.ofSchema_sampleNoted :
    Relation.EqvGen Edit (.object (Json.sampleBasket Json.sampleItem Json.sampleItems)) (.object Json.sampleNoted) ∧
    Model.ofSchema (.object (Json.sampleBasket Json.sampleItem Json.sampleItems)) =
      Model.ofSchema (.object Json.sampleNoted) ∧
    Model.ofSchema (.object Json.sampleNoted) = .ok
      ⟨"Basket", none, [⟨"items", .array (.model (.named "Item")), false⟩], [⟨"Item", .named "Item"⟩]⟩ := by
  let item := ("additionalProperties", Json.bool false) :: Json.sampleItem
  let items := ("maxItems", Json.ofWord 9) :: Json.sampleItems
  let definition : Place := ⟨Json.sampleTitle "Basket", [("properties", .object [("items", .object Json.sampleItems)])],
    [], [], "Item"⟩
  let property : Place := ⟨Json.sampleTitle "Basket" ++ [("definitions", .object [("Item", .object item)])], [],
    [], [], "items"⟩
  have first : Edit (.object (Json.sampleBasket Json.sampleItem Json.sampleItems))
      (.object (Json.sampleBasket item Json.sampleItems)) :=
    .definition definition (.schema (.add [] Json.sampleItem (.bool false) (by decide)))
  have second : Edit (.object (Json.sampleBasket item Json.sampleItems)) (.object (Json.sampleBasket item items)) :=
    .property property (.add [] Json.sampleItems (.ofWord 9) (by decide))
  have third : Edit (.object (Json.sampleBasket item items))
      (.object (("$schema", .string "draft-04") :: Json.sampleBasket item items)) :=
    .schema (.add [] (Json.sampleBasket item items) (.string "draft-04") (by decide))
  have last : Edit (.object (("$schema", .string "draft-04") :: Json.sampleBasket item items))
      (.object Json.sampleNoted) :=
    .schema (.reorder (List.reverse_perm _).symm (by decide))
  have changed : Relation.EqvGen Edit (.object (Json.sampleBasket Json.sampleItem Json.sampleItems))
      (.object Json.sampleNoted) :=
    .trans _ _ _ (.rel _ _ first) (.trans _ _ _ (.rel _ _ second) (.trans _ _ _ (.rel _ _ third) (.rel _ _ last)))
  exact ⟨changed, Model.ofSchema_unseen changed, rfl⟩

end Schemata
