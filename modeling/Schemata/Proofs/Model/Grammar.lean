import Mathlib.Data.List.Forall2
import Schemata.Reflection
import Schemata.Proofs.Json.Members
import Schemata.Proofs.Model.Sound

/-! The grammar of the schemas that describe models. Whether a schema describes one depends on the keys that
are visible around it only (`Grammatical`), which one it describes also on what stands under them (`Describes`):
a reference is to the nearest definition under its key, of the earlier siblings first, and then of the schemas
around from the inside out. -/
namespace Schemata

open Json (find?)

namespace Reflection

/-- The schemas under `definitions`; there are none without such a member. -/
def Declared (members declared : List (String × Json)) : Prop :=
  find? "definitions" members = some (.object declared) ∨ find? "definitions" members = none ∧ declared = []

/-- The names under `required`; there are none without such a member. -/
def Required (members : List (String × Json)) (names : List String) : Prop :=
  find? "required" members = some (.array (names.map .string)) ∨ find? "required" members = none ∧ names = []

/-- The words for scalars in a property, and the scalars that they stand for. -/
def scalarWords : List (String × Scalar) :=
  [("string", .string), ("boolean", .bool), ("number", .int), ("integer", .int)]

/-- The pointer `#/definitions/key` to one of the visible keys. -/
def Local (visible : List String) (pointer : Json) : Prop :=
  ∃ key ∈ visible, PointerKey key ∧ pointer = .string (definitionsPointer ++ key)

/-- What a property may be. -/
inductive GrammaticalProperty (visible : List String) : Json → Prop where
  | scalar {members : List (String × Json)} {word : String} {kind : Scalar} :
      find? "type" members = some (.string word) → (word, kind) ∈ scalarWords →
      GrammaticalProperty visible (.object members)
  | array {members : List (String × Json)} {pointer : Json} :
      find? "type" members = some (.string "array") →
      find? "items" members = some (.object [("$ref", pointer)]) → Local visible pointer →
      GrammaticalProperty visible (.object members)
  | reference {members : List (String × Json)} {pointer : Json} :
      find? "type" members = none → find? "$ref" members = some pointer → Local visible pointer →
      GrammaticalProperty visible (.object members)

/-- What a schema may be. Each of its definitions sees the earlier ones, its properties see all. -/
inductive Grammatical : (visible : List String) → Json → Prop where
  | schema {visible : List String} {members declared properties : List (String × Json)} {title : String}
      {required : List String} :
      find? "title" members = some (.string title) → find? "type" members = some (.string "object") →
      Declared members declared →
      (∀ i key inner, declared[i]? = some (key, inner) →
        Grammatical ((declared.take i).map (·.1) ++ visible) inner) →
      find? "properties" members = some (.object properties) → Required members required →
      (∀ property ∈ properties, GrammaticalProperty (declared.map (·.1) ++ visible) property.2) →
      Grammatical visible (.object members)

/-- The pointer names the nearest visible definition under its key. -/
def Names (visible : Visible) (pointer : Json) (target : Model) : Prop :=
  ∃ key nearer further, PointerKey key ∧ pointer = .string (definitionsPointer ++ key) ∧
    visible = nearer ++ ⟨key, target⟩ :: further ∧ key ∉ nearer.map (·.key)

inductive DescribesShape (visible : Visible) : Json → Shape → Prop where
  | scalar {members : List (String × Json)} {word : String} {kind : Scalar} :
      find? "type" members = some (.string word) → (word, kind) ∈ scalarWords →
      DescribesShape visible (.object members) (.scalar kind)
  | array {members : List (String × Json)} {pointer : Json} {target : Model} :
      find? "type" members = some (.string "array") →
      find? "items" members = some (.object [("$ref", pointer)]) → Names visible pointer target →
      DescribesShape visible (.object members) (.array (.model target))
  | reference {members : List (String × Json)} {pointer : Json} {target : Model} :
      find? "type" members = none → find? "$ref" members = some pointer → Names visible pointer target →
      DescribesShape visible (.object members) (.model target)

structure DescribesField (visible : Visible) (required : List String) (property : String × Json) (f : Field) :
    Prop where
  name : f.name = property.1
  shape : DescribesShape visible property.2 f.shape
  required : f.required = true ↔ property.1 ∈ required

/-- A schema inside of others whose definitions are `outer` describes a model: with the title, a description
if it is a text, one definition for each that is declared and one field for each property, in their order. -/
inductive Describes : (outer : Visible) → Json → Model → Prop where
  | schema {outer : Visible} {members declared properties : List (String × Json)} {title : String}
      {description : Option String} {required : List String} {fields : List Field}
      {definitions : List Definition} :
      find? "title" members = some (.string title) → find? "type" members = some (.string "object") →
      (∀ text, description = some text ↔ find? "description" members = some (.string text)) →
      Declared members declared → definitions.map (·.key) = declared.map (·.1) →
      (∀ i key inner model, declared[i]? = some (key, inner) → definitions[i]? = some ⟨key, model⟩ →
        Describes (definitions.take i ++ outer) inner model) →
      find? "properties" members = some (.object properties) → Required members required →
      List.Forall₂ (DescribesField (definitions ++ outer) required) properties fields →
      Describes outer (.object members) ⟨title, description, fields, definitions⟩

theorem pointerKey?_eq_some_iff {pointer key : String} :
    pointerKey? pointer = some key ↔ PointerKey key ∧ pointer = definitionsPointer ++ key := by
  have cut (cs : List Char) : Text.dropLead? definitionsPointer.toList pointer.toList = some cs ↔
      pointer = definitionsPointer ++ String.ofList cs := by
    rw [Text.dropLead?_eq_some, ← String.toList_inj, String.toList_append, String.toList_ofList]
  constructor
  · intro found
    unfold pointerKey? at found
    split at found
    · rename_i cs lead
      split at found
      · cases found
      · rename_i good
        rw [not_or] at good
        cases found
        exact ⟨⟨by simpa using good.1, by simpa using good.2⟩, (cut cs).mp lead⟩
    · cases found
  · rintro ⟨good, same⟩
    have lead := (cut key.toList).mpr (by rw [same, String.ofList_toList])
    have nonempty : key.toList ≠ [] := by simpa using good.1
    simp [pointerKey?, lead, nonempty, good.2]

variable {visible : Visible}

theorem find?_eq_none_iff {key : String} :
    visible.find? (fun d => d.key = key) = none ↔ key ∉ visible.map (·.key) := by
  simp

theorem resolve_eq_ok_iff {pointer : Json} {target : Model} :
    resolve visible pointer = .ok target ↔ Names visible pointer target := by
  constructor
  · intro resolved
    unfold resolve at resolved
    split at resolved
    · rename_i text
      split at resolved
      · cases resolved
      · rename_i key pointed
        obtain ⟨good, rfl⟩ := pointerKey?_eq_some_iff.mp pointed
        split at resolved
        · rename_i d found
          cases resolved
          obtain ⟨named, nearer, further, parts, first⟩ := List.find?_eq_some_iff_append.mp found
          obtain ⟨key', target⟩ := d
          obtain rfl : key' = key := by simpa using named
          refine ⟨key', nearer, further, good, rfl, parts, fun again => ?_⟩
          obtain ⟨other, inside, same⟩ := List.mem_map.mp again
          simpa [same] using first other inside
        · cases resolved
    · cases resolved
  · rintro ⟨key, nearer, further, good, rfl, rfl, first⟩
    have pointed := pointerKey?_eq_some_iff.mpr ⟨good, rfl⟩
    have found : (nearer ++ ⟨key, target⟩ :: further).find? (fun d => d.key = key) = some ⟨key, target⟩ := by
      refine List.find?_eq_some_iff_append.mpr ⟨by simp, nearer, further, rfl, fun d inside => ?_⟩
      have apart : d.key ≠ key := fun same => first (same ▸ List.mem_map_of_mem inside)
      simpa using apart
    simp [resolve, pointed, found]

theorem arrayShape_eq_ok_iff {name : String} {items : Option Json} {shape : Shape} :
    arrayShape visible name items = .ok shape ↔ ∃ pointer target,
      items = some (.object [("$ref", pointer)]) ∧ Names visible pointer target ∧
        shape = .array (.model target) := by
  constructor
  · intro made
    unfold arrayShape at made
    split at made
    · rename_i pointer
      split at made
      · rename_i target resolved
        cases made
        exact ⟨pointer, target, rfl, resolve_eq_ok_iff.mp resolved, rfl⟩
      · cases made
    · cases made
  · rintro ⟨pointer, target, rfl, names, rfl⟩
    simp [arrayShape, resolve_eq_ok_iff.mpr names]

theorem propertyShape_eq_ok_iff {name : String} {info : Json} {shape : Shape} :
    propertyShape visible name info = .ok shape ↔ DescribesShape visible info shape := by
  constructor
  · intro made
    unfold propertyShape at made
    split at made
    · rename_i members
      split at made
      · rename_i type
        cases made
        exact .scalar type (by simp [scalarWords])
      · rename_i type
        cases made
        exact .scalar type (by simp [scalarWords])
      · rename_i type
        cases made
        exact .scalar type (by simp [scalarWords])
      · rename_i type
        cases made
        exact .scalar type (by simp [scalarWords])
      · rename_i type
        obtain ⟨pointer, target, items, names, rfl⟩ := arrayShape_eq_ok_iff.mp made
        exact .array type items names
      · cases made
      · rename_i untyped
        split at made
        · rename_i pointer reference
          split at made
          · rename_i target resolved
            cases made
            exact .reference untyped reference (resolve_eq_ok_iff.mp resolved)
          · cases made
        · cases made
    · cases made
  · intro describes
    cases describes with
    | @scalar members word kind type word =>
      simp only [scalarWords, List.mem_cons, Prod.mk.injEq, List.not_mem_nil, or_false] at word
      rcases word with ⟨rfl, rfl⟩ | ⟨rfl, rfl⟩ | ⟨rfl, rfl⟩ | ⟨rfl, rfl⟩ <;> simp [propertyShape, type]
    | @array members pointer target type items names =>
      have made : arrayShape visible name (some (.object [("$ref", pointer)])) = .ok (.array (.model target)) :=
        arrayShape_eq_ok_iff.mpr ⟨pointer, target, rfl, names, rfl⟩
      simp [propertyShape, type, items, made]
    | reference untyped reference names =>
      simp [propertyShape, untyped, reference, resolve_eq_ok_iff.mpr names]

theorem fields_eq_ok_iff {required : List String} {properties : List (String × Json)} {fs : List Field} :
    fields visible required properties = .ok fs ↔
      List.Forall₂ (DescribesField visible required) properties fs := by
  induction properties generalizing fs with
  | nil =>
    rw [List.forall₂_nil_left_iff, fields, Except.ok.injEq, eq_comm]
  | cons property rest ih =>
    obtain ⟨name, info⟩ := property
    rw [List.forall₂_cons_left_iff]
    constructor
    · intro made
      unfold fields at made
      split at made
      · cases made
      · rename_i shape first
        split at made
        · cases made
        · rename_i more later
          cases made
          exact ⟨_, more, ⟨rfl, propertyShape_eq_ok_iff.mp first, by simp⟩, ih.mp later, rfl⟩
    · rintro ⟨⟨name', shape, needed⟩, more, ⟨rfl, first, listed⟩, later, rfl⟩
      have needed' : decide (name' ∈ required) = needed := by
        rw [Bool.eq_iff_iff, decide_eq_true_iff]
        exact listed.symm
      simp [fields, propertyShape_eq_ok_iff.mpr first, ih.mpr later, needed']

theorem objectTitle_eq_ok_iff {members : List (String × Json)} {title : String} :
    objectTitle members = .ok title ↔
      find? "title" members = some (.string title) ∧ find? "type" members = some (.string "object") := by
  constructor
  · intro titled
    unfold objectTitle at titled
    split at titled
    · rename_i given
      split at titled
      · rename_i type
        cases titled
        exact ⟨given, type⟩
      · cases titled
      · cases titled
    · cases titled
  · rintro ⟨given, type⟩
    simp [objectTitle, given, type]

theorem mapM_string? {items : List Json} {names : List String} :
    items.mapM Json.string? = some names ↔ items = names.map .string := by
  induction items generalizing names with
  | nil => cases names <;> simp
  | cons item rest ih =>
    have some_iff : (item :: rest).mapM Json.string? = some names ↔
        ∃ name more, item = .string name ∧ rest = more.map .string ∧ name :: more = names := by
      cases item <;> simp [Json.string?, Option.bind_eq_some_iff, ih]
    rw [some_iff]
    cases names with
    | nil => simp
    | cons name more => simp [and_comm]

theorem requiredNames_eq_ok_iff {title : String} {members : List (String × Json)} {names : List String} :
    requiredNames title members = .ok names ↔ Required members names := by
  constructor
  · intro read
    unfold requiredNames at read
    split at read
    · rename_i absent
      cases read
      exact .inr ⟨absent, rfl⟩
    · rename_i items given
      split at read
      · rename_i texts
        cases read
        exact .inl (by rw [given, mapM_string?.mp texts])
      · cases read
    · cases read
  · rintro (given | ⟨absent, rfl⟩)
    · have texts : (names.map Json.string).mapM Json.string? = some names := mapM_string?.mpr rfl
      simp [requiredNames, given, texts, -List.mapM_map]
    · simp [requiredNames, absent]

theorem schemaFields_eq {members properties : List (String × Json)} {required : List String}
    (listed : find? "properties" members = some (.object properties)) (needed : Required members required)
    (visible : Visible) (title : String) :
    schemaFields visible title members = fields visible required properties := by
  simp [schemaFields, listed, requiredNames_eq_ok_iff.mpr needed]

theorem schemaFields_eq_ok_iff {visible : Visible} {title : String} {members : List (String × Json)}
    {fs : List Field} : schemaFields visible title members = .ok fs ↔ ∃ properties required,
      find? "properties" members = some (.object properties) ∧ Required members required ∧
        List.Forall₂ (DescribesField visible required) properties fs := by
  constructor
  · intro made
    unfold schemaFields at made
    split at made
    · rename_i properties given
      split at made
      · cases made
      · rename_i required listed
        exact ⟨properties, required, given, requiredNames_eq_ok_iff.mp listed, fields_eq_ok_iff.mp made⟩
    · cases made
  · rintro ⟨properties, required, given, listed, each⟩
    rw [schemaFields_eq given listed, fields_eq_ok_iff.mpr each]

/-- The member `definitions` is looked up like every other one. -/
theorem definitionsMember_eq (outer : Visible) (title : String) (members : List (String × Json)) :
    definitionsMember outer title members =
      match find? "definitions" members with
      | none => .ok []
      | some (.object declared) => declare outer [] declared
      | some _ => .error (.definitionsNotAnObject title) := by
  induction members with
  | nil => rfl
  | cons member rest ih =>
    obtain ⟨key, v⟩ := member
    by_cases here : key = "definitions"
    · cases v <;> simp [definitionsMember, find?, here]
    · cases v <;> simp [definitionsMember, find?, here, ih]

theorem Declared.definitionsMember_eq {members declared : List (String × Json)} (declares : Declared members declared)
    (outer : Visible) (title : String) : definitionsMember outer title members = declare outer [] declared := by
  rw [Reflection.definitionsMember_eq]
  rcases declares with found | ⟨absent, rfl⟩
  · rw [found]
  · rw [absent]
    rfl

theorem definitionsMember_eq_ok_iff {outer : Visible} {title : String} {members : List (String × Json)}
    {definitions : List Definition} : definitionsMember outer title members = .ok definitions ↔
      ∃ declared, Declared members declared ∧ declare outer [] declared = .ok definitions := by
  constructor
  · intro member
    rw [definitionsMember_eq] at member
    split at member
    · rename_i absent
      exact ⟨[], .inr ⟨absent, rfl⟩, member⟩
    · rename_i declared found
      exact ⟨declared, .inl found, member⟩
    · cases member
  · rintro ⟨declared, declares, made⟩
    rw [declares.definitionsMember_eq, made]

/-- Each definition is reflected among the earlier ones. -/
theorem declare_eq_ok_iff {outer : Visible} {seen definitions : List Definition}
    {declared : List (String × Json)} : declare outer seen declared = .ok definitions ↔
      ∃ more, definitions = seen ++ more ∧ more.map (·.key) = declared.map (·.1) ∧
        ∀ i key inner model, declared[i]? = some (key, inner) → more[i]? = some ⟨key, model⟩ →
          reflectIn (seen ++ more.take i ++ outer) inner = .ok model := by
  induction declared generalizing seen with
  | nil =>
    constructor
    · intro made
      cases made
      exact ⟨[], by simp, rfl, nofun⟩
    · rintro ⟨more, rfl, none, -⟩
      rw [List.map_eq_nil_iff.mp none, List.append_nil]
      rfl
  | cons first rest ih =>
    obtain ⟨key, schema⟩ := first
    constructor
    · intro made
      rw [declare] at made
      split at made
      · cases made
      · rename_i model reflected
        obtain ⟨more, rfl, keys, each⟩ := ih.mp made
        refine ⟨⟨key, model⟩ :: more, by simp, by simp [keys], fun i key' inner model' given put => ?_⟩
        cases i with
        | zero =>
          obtain ⟨rfl, rfl⟩ : key = key' ∧ schema = inner := by simpa using given
          obtain rfl : model = model' := by simpa using put
          simpa using reflected
        | succ i => simpa using each i key' inner model' given put
    · rintro ⟨more, rfl, keys, each⟩
      cases more with
      | nil => cases keys
      | cons d later =>
        obtain ⟨key', model⟩ := d
        obtain ⟨rfl, keys'⟩ : key' = key ∧ later.map (·.key) = rest.map (·.1) := by simpa using keys
        have reflected : reflectIn (seen ++ outer) schema = .ok model := by
          simpa using each 0 key' schema model rfl rfl
        have each' : ∀ i key inner model', rest[i]? = some (key, inner) → later[i]? = some ⟨key, model'⟩ →
            reflectIn (seen ++ [⟨key', model⟩] ++ later.take i ++ outer) inner = .ok model' :=
          fun i key inner model' given put => by simpa using each (i + 1) key inner model' given put
        rw [declare, reflected]
        exact ih.mpr ⟨later, by simp, keys', each'⟩

theorem reflectIn_eq_ok_iff {outer : Visible} {members : List (String × Json)} {m : Model} :
    reflectIn outer (.object members) = .ok m ↔ ∃ title definitions fields,
      m = ⟨title, (find? "description" members).bind Json.string?, fields, definitions⟩ ∧
      objectTitle members = .ok title ∧ definitionsMember outer title members = .ok definitions ∧
      schemaFields (definitions ++ outer) title members = .ok fields := by
  constructor
  · intro reflected
    rw [reflectIn] at reflected
    split at reflected
    · cases reflected
    · rename_i title titled
      split at reflected
      · cases reflected
      · rename_i definitions declared
        split at reflected
        · cases reflected
        · rename_i fields made
          cases reflected
          exact ⟨title, definitions, fields, rfl, titled, declared, made⟩
  · rintro ⟨title, definitions, fields, rfl, titled, declared, made⟩
    rw [reflectIn]
    simp only [titled, declared, made]

theorem Declared.getD_eq {members declared : List (String × Json)} (declares : Declared members declared) :
    (find? "definitions" members).getD (.object []) = .object declared := by
  rcases declares with found | ⟨absent, rfl⟩
  · rw [found, Option.getD_some]
  · rw [absent, Option.getD_none]

/-- What stands under a key of the definitions is smaller than the schema. -/
theorem Declared.sizeOf_lt {members declared : List (String × Json)} (declares : Declared members declared)
    {i : Nat} {key : String} {inner : Json} (given : declared[i]? = some (key, inner)) :
    sizeOf inner < sizeOf (Json.object members) := by
  rcases declares with found | ⟨-, rfl⟩
  · have outside := List.sizeOf_lt_of_mem (Json.mem_of_find? found)
    have inside := List.sizeOf_lt_of_mem (List.mem_of_getElem? given)
    simp only [Prod.mk.sizeOf_spec, Json.object.sizeOf_spec] at outside inside ⊢
    omega
  · cases given

theorem text_bind_string? {found : Option Json} {text : String} :
    found.bind Json.string? = some text ↔ found = some (.string text) := by
  rcases found with _ | v
  · simp
  · cases v <;> simp [Json.string?]

theorem described_eq {members : List (String × Json)} {description : Option String}
    (text : ∀ text, description = some text ↔ find? "description" members = some (.string text)) :
    (find? "description" members).bind Json.string? = description :=
  Option.ext fun t => text_bind_string?.trans (text t).symm

theorem describes_of_reflectIn {outer : Visible} {schema : Json} {m : Model}
    (reflected : reflectIn outer schema = .ok m) : Describes outer schema m := by
  -- By induction on the size of the schema.
  cases schema with
  | object members =>
    obtain ⟨title, definitions, fields, rfl, titled, member, made⟩ := reflectIn_eq_ok_iff.mp reflected
    obtain ⟨given, type⟩ := objectTitle_eq_ok_iff.mp titled
    obtain ⟨declared, declares, inOrder⟩ := definitionsMember_eq_ok_iff.mp member
    obtain ⟨_, rfl, keys, each⟩ := declare_eq_ok_iff.mp inOrder
    obtain ⟨properties, required, listed, needed, described⟩ := schemaFields_eq_ok_iff.mp made
    refine .schema given type (fun text => text_bind_string?) declares keys (fun i key inner model at_ put => ?_)
      listed needed described
    have smaller := declares.sizeOf_lt at_
    exact describes_of_reflectIn (each i key inner model at_ put)
  | _ => cases reflected
termination_by sizeOf schema

/-- Once the definitions of a schema are known, all that is left are its fields. -/
theorem reflectIn_of_declare {outer : Visible} {members declared properties : List (String × Json)} {title : String}
    {description : Option String} {required : List String} {definitions : List Definition}
    (given : find? "title" members = some (.string title)) (type : find? "type" members = some (.string "object"))
    (text : ∀ text, description = some text ↔ find? "description" members = some (.string text))
    (declares : Declared members declared) (made : declare outer [] declared = .ok definitions)
    (listed : find? "properties" members = some (.object properties)) (needed : Required members required) :
    reflectIn outer (.object members) =
      (fields (definitions ++ outer) required properties).map fun fs => ⟨title, description, fs, definitions⟩ := by
  rw [reflectIn, objectTitle_eq_ok_iff.mpr ⟨given, type⟩]
  simp only [declares.definitionsMember_eq, made, schemaFields_eq listed needed, described_eq text]
  cases fields (definitions ++ outer) required properties <;> rfl

theorem Describes.reflectIn {outer : Visible} {schema : Json} {m : Model} (describes : Describes outer schema m) :
    reflectIn outer schema = .ok m := by
  induction describes with
  | @schema outer members declared properties title description required fields definitions given type text
      declares keys _ listed needed described each =>
    have inOrder : declare outer [] declared = .ok definitions := declare_eq_ok_iff.mpr ⟨definitions, rfl, keys, each⟩
    rw [reflectIn_of_declare given type text declares inOrder listed needed, fields_eq_ok_iff.mpr described]
    rfl

variable {visible : Visible}

theorem exists_names_iff {pointer : Json} :
    (∃ target, Names visible pointer target) ↔ Local (visible.map (·.key)) pointer := by
  constructor
  · rintro ⟨target, key, nearer, further, good, rfl, rfl, -⟩
    exact ⟨key, by simp, good, rfl⟩
  · rintro ⟨key, member, good, rfl⟩
    cases found : visible.find? fun d => d.key = key with
    | none => exact absurd member (find?_eq_none_iff.mp found)
    | some d =>
      have pointed := pointerKey?_eq_some_iff.mpr ⟨good, rfl⟩
      exact ⟨d.model, resolve_eq_ok_iff.mp (by simp [resolve, pointed, found])⟩

theorem exists_shape_iff {info : Json} :
    (∃ shape, DescribesShape visible info shape) ↔ GrammaticalProperty (visible.map (·.key)) info := by
  constructor
  · rintro ⟨shape, describes⟩
    cases describes with
    | scalar type word => exact .scalar type word
    | array type items names => exact .array type items (exists_names_iff.mp ⟨_, names⟩)
    | reference untyped pointer names => exact .reference untyped pointer (exists_names_iff.mp ⟨_, names⟩)
  · intro grammatical
    cases grammatical with
    | scalar type word => exact ⟨_, .scalar type word⟩
    | array type items known =>
      obtain ⟨target, names⟩ := exists_names_iff.mpr known
      exact ⟨_, .array type items names⟩
    | reference untyped pointer known =>
      obtain ⟨target, names⟩ := exists_names_iff.mpr known
      exact ⟨_, .reference untyped pointer names⟩

theorem exists_fields_iff {required : List String} {properties : List (String × Json)} :
    (∃ fs, List.Forall₂ (DescribesField visible required) properties fs) ↔
      ∀ property ∈ properties, GrammaticalProperty (visible.map (·.key)) property.2 := by
  induction properties with
  | nil => exact ⟨fun _ => nofun, fun _ => ⟨[], .nil⟩⟩
  | cons property rest ih =>
    rw [List.forall_mem_cons, ← ih, ← exists_shape_iff]
    constructor
    · rintro ⟨_, _ | ⟨first, later⟩⟩
      exact ⟨⟨_, first.shape⟩, _, later⟩
    · rintro ⟨⟨shape, first⟩, fs, later⟩
      exact ⟨⟨property.1, shape, property.1 ∈ required⟩ :: fs, .cons ⟨rfl, first, by simp⟩ later⟩

/-- Lists that are the same under some view have elements at the same places. -/
theorem exists_getElem? {α β γ : Type} {f : α → γ} {g : β → γ} {xs : List α} {ys : List β}
    (same : xs.map f = ys.map g) {i : Nat} {y : β} (given : ys[i]? = some y) : ∃ x, xs[i]? = some x ∧ f x = g y := by
  have seen : xs[i]?.map f = some (g y) := by
    rw [← List.getElem?_map, same, List.getElem?_map, given, Option.map_some]
  exact Option.map_eq_some_iff.mp seen

/-- Definitions are found one after the other, if each is found whatever the earlier ones are. -/
theorem exists_definitions {describes : Visible → Json → Model → Prop} {outer : Visible}
    {declared : List (String × Json)}
    (each : ∀ i key inner, declared[i]? = some (key, inner) → ∀ seen : Visible,
      seen.map (·.key) = (declared.take i).map (·.1) → ∃ model, describes (seen ++ outer) inner model) :
    ∃ definitions : List Definition, definitions.map (·.key) = declared.map (·.1) ∧
      ∀ i key inner model, declared[i]? = some (key, inner) → definitions[i]? = some ⟨key, model⟩ →
        describes (definitions.take i ++ outer) inner model := by
  induction declared generalizing describes with
  | nil => exact ⟨[], rfl, nofun⟩
  | cons first rest ih =>
    obtain ⟨key, schema⟩ := first
    obtain ⟨model, here⟩ := each 0 key schema rfl [] rfl
    obtain ⟨later, keys, found⟩ := @ih (fun visible => describes (⟨key, model⟩ :: visible))
      fun i key' inner given seen earlier => each (i + 1) key' inner given (⟨key, model⟩ :: seen) (by simp [earlier])
    refine ⟨⟨key, model⟩ :: later, by simp [keys], fun i key' inner other given put => ?_⟩
    cases i with
    | zero =>
      obtain ⟨rfl, rfl⟩ : key = key' ∧ schema = inner := by simpa using given
      obtain rfl : model = other := by simpa using put
      exact here
    | succ i => exact found i key' inner other given put

theorem Describes.grammatical {outer : Visible} {schema : Json} {m : Model} (describes : Describes outer schema m) :
    Grammatical (outer.map (·.key)) schema := by
  induction describes with
  | schema given type _ declares keys _ listed needed described each =>
    refine .schema given type declares (fun i name inner at_ => ?_) listed needed ?_
    · obtain ⟨⟨key, model⟩, put, rfl⟩ := exists_getElem? keys at_
      have below := each i key inner model at_ put
      rwa [List.map_append, List.map_take, keys, ← List.map_take] at below
    · rw [← keys, ← List.map_append]
      exact exists_fields_iff.mp ⟨_, described⟩

theorem Grammatical.describes {keys : List String} {schema : Json} (grammatical : Grammatical keys schema) :
    ∀ outer : Visible, outer.map (·.key) = keys → ∃ m, Describes outer schema m := by
  induction grammatical with
  | @schema visible members declared properties title required given type declares _ listed needed each inner =>
    rintro outer rfl
    obtain ⟨definitions, names, below⟩ := exists_definitions fun i key schema at_ seen earlier =>
      inner i key schema at_ (seen ++ outer) (by rw [List.map_append, earlier])
    rw [← names, ← List.map_append] at each
    obtain ⟨fields, described⟩ := exists_fields_iff.mpr each
    exact ⟨_, .schema given type (fun text => text_bind_string?) declares names below listed needed described⟩

end Reflection

open Reflection

/-- A schema describes a model exactly if it follows the grammar, and then the one model that it describes by
resolving each reference to the nearest definition under its key. -/
theorem Model.ofSchema_grammar (schema : Json) :
    ((∃ m, Model.ofSchema schema = .ok m) ↔ Grammatical [] schema) ∧
      ∀ m, Model.ofSchema schema = .ok m ↔ Describes [] schema m := by
  have exactly (m : Model) : Model.ofSchema schema = .ok m ↔ Describes [] schema m :=
    ⟨describes_of_reflectIn, Describes.reflectIn⟩
  refine ⟨⟨fun ⟨m, made⟩ => ((exactly m).mp made).grammatical, fun grammatical => ?_⟩, exactly⟩
  obtain ⟨m, describes⟩ := grammatical.describes [] rfl
  exact ⟨m, (exactly m).mpr describes⟩

/-- Inside of `Inner`, its own definition under the key comes before the one around it. -/
example :
    let leaf (title : String) : Json :=
      .object [("title", .string title), ("type", .string "object"), ("properties", .object [])]
    let toKey : Json := .object [("f", .object [("$ref", .string "#/definitions/key")])]
    let inner : Json := .object [("title", .string "Inner"), ("type", .string "object"),
      ("definitions", .object [("key", leaf "Near")]), ("properties", toKey)]
    Model.ofSchema (.object [("title", .string "Outer"), ("type", .string "object"),
      ("definitions", .object [("key", leaf "Far"), ("inner", inner)]), ("properties", toKey)]) =
    let near := Model.named "Near"
    let far := Model.named "Far"
    .ok ⟨"Outer", none, [⟨"f", .model far, false⟩],
      [⟨"key", far⟩, ⟨"inner", ⟨"Inner", none, [⟨"f", .model near, false⟩], [⟨"key", near⟩]⟩⟩]⟩ := rfl

end Schemata
