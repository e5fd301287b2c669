import Mathlib.Data.List.Perm.Basic
import Schemata.Proofs.Model.Shallow

/-! The order of the definitions in a schema. Each is read among those before it, so their order decides whether
the schema describes a model; it has no influence on what the model is. Without definitions inside of
definitions, the orders that describe one are those in which each definition stands after all that it refers to,
and any other order is refused for a reference that names nothing before it. -/
namespace Schemata

open Json Reflection

namespace Json

/-- The pointer in a property: its own or, in an array, the one in its items. Next to a type its own counts for
nothing. -/
def pointer? : Json → Option Json
  | .object members =>
    match find? "type" members with
    | none => find? "$ref" members
    | some (.string "array") =>
      match find? "items" members with
      | some (.object [("$ref", pointer)]) => some pointer
      | _ => none
    | some _ => none
  | _ => none

def RefersTo (key : String) (property : Json) : Prop :=
  property.pointer? = some (.string (definitionsPointer ++ key))

def Needs (schema : Json) (key : String) : Prop :=
  ∃ property ∈ schema.membersUnder "properties", property.2.RefersTo key

/-- Each definition stands after all that its properties refer to, but for those under keys known before. -/
def DependenciesFirst (known : List String) (declared : List (String × Json)) : Prop :=
  ∀ before d after, declared = before ++ d :: after → ∀ key, d.2.Needs key → key ∈ known ++ before.map (·.1)

/-- Some definition refers to the one under the key without standing after it. -/
def Misplaced (declared : List (String × Json)) (key : String) : Prop :=
  ∃ before d after, declared = before ++ d :: after ∧ d.2.Needs key ∧ key ∉ before.map (·.1)

theorem DependenciesFirst.mem_known {known : List String} {declared : List (String × Json)} {key : String}
    (first : DependenciesFirst known declared) (misplaced : Misplaced declared key) : key ∈ known := by
  obtain ⟨before, d, after, parts, needed, unseen⟩ := misplaced
  exact (List.mem_append.mp (first before d after parts key needed)).resolve_right unseen

theorem Misplaced.cons {declared : List (String × Json)} {key : String} (misplaced : Misplaced declared key)
    {d : String × Json} (apart : key ≠ d.1) : Misplaced (d :: declared) key := by
  obtain ⟨before, e, after, rfl, needed, unseen⟩ := misplaced
  exact ⟨d :: before, e, after, rfl, needed, by simpa [apart] using unseen⟩

@[simp] theorem dependenciesFirst_nil (known : List String) : DependenciesFirst known [] := by
  intro before d after parts
  simp at parts

@[simp] theorem dependenciesFirst_cons {known : List String} {d : String × Json} {rest : List (String × Json)} :
    DependenciesFirst known (d :: rest) ↔
      (∀ key, d.2.Needs key → key ∈ known) ∧ DependenciesFirst (known ++ [d.1]) rest := by
  constructor
  · intro first
    refine ⟨fun key needed => by simpa using first [] d rest rfl key needed, ?_⟩
    rintro before e after rfl key needed
    simpa using first (d :: before) e after rfl key needed
  · rintro ⟨here, later⟩ before e after parts key needed
    cases before with
    | nil =>
      obtain ⟨rfl, -⟩ := List.cons.inj parts
      simpa using here key needed
    | cons head before =>
      obtain ⟨rfl, same⟩ := List.cons.inj parts
      simpa using later before e after same key needed

def redeclare (declared : List (String × Json)) : Json → Json
  | .object members =>
    match find? "definitions" members with
    | some _ => .object (put "definitions" (.object declared) members)
    | none => .object members
  | v => v

end Json

namespace Reflection

/-- What comes of looking for something in a scope with some of the definitions: the value, if all keys that it
needs are visible, and otherwise a complaint about one that is not. -/
inductive Attempt {α : Type} (definitions visible : Visible) (needs : String → Prop) (value : α) :
    Except ReflectionError α → Prop where
  | found : (∀ key, needs key → key ∈ visible.map (·.key)) → Attempt definitions visible needs value (.ok value)
  | missing {key : String} : key ∈ definitions.map (·.key) → needs key → key ∉ visible.map (·.key) →
      Attempt definitions visible needs value (.error (.undeclared (definitionsPointer ++ key)))

theorem Attempt.map {α β : Type} {definitions visible : Visible} {needs : String → Prop} {value : α}
    {result : Except ReflectionError α} (attempt : Attempt definitions visible needs value result) (f : α → β) :
    Attempt definitions visible needs (f value) (result.map f) := by
  cases attempt with
  | found met => exact .found met
  | missing declared needed unseen => exact .missing declared needed unseen

theorem Attempt.eq_ok {α : Type} {definitions visible : Visible} {needs : String → Prop} {value : α}
    {result : Except ReflectionError α} (attempt : Attempt definitions visible needs value result)
    (all : definitions.map (·.key) ⊆ visible.map (·.key)) : result = .ok value := by
  cases attempt with
  | found => rfl
  | missing declared _ unseen => exact absurd (all declared) unseen

section
variable {definitions around visible : Visible} (unique : (definitions.map (·.key)).Nodup)
  (inside : around ⊆ definitions) (scope : visible ⊆ definitions)
include unique inside scope

theorem Names.attempt {pointer : Json} {target : Model} (names : Names around pointer target) :
    Attempt definitions visible (fun key => pointer = .string (definitionsPointer ++ key)) target
      (resolve visible pointer) := by
  obtain ⟨key, nearer, further, good, rfl, rfl, -⟩ := names
  have pointed := pointerKey?_eq_some_iff.mpr ⟨good, rfl⟩
  have declared : (⟨key, target⟩ : Definition) ∈ definitions := inside (by simp)
  cases looked : visible.find? fun d => d.key = key with
  | none =>
    simp only [resolve, pointed, looked]
    exact .missing (List.mem_map_of_mem declared) rfl (find?_eq_none_iff.mp looked)
  | some d =>
    have member := List.mem_of_find?_eq_some looked
    have named : d.key = key := by simpa using List.find?_some looked
    obtain rfl : d = ⟨key, target⟩ := List.inj_on_of_nodup_map unique (scope member) declared named
    simp only [resolve, pointed, looked]
    refine .found fun other same => ?_
    obtain rfl : key = other := by simpa using same
    exact List.mem_map_of_mem member

theorem DescribesShape.attempt {info : Json} {s : Shape} (describes : DescribesShape around info s) (name : String) :
    Attempt definitions visible (fun key => info.RefersTo key) s (propertyShape visible name info) := by
  cases describes with
  | @scalar members word kind type stands =>
    rw [propertyShape_eq_ok_iff.mpr (.scalar type stands)]
    have none : (Json.object members).pointer? = none := by
      simp only [scalarWords, List.mem_cons, Prod.mk.injEq, List.not_mem_nil, or_false] at stands
      rcases stands with ⟨rfl, -⟩ | ⟨rfl, -⟩ | ⟨rfl, -⟩ | ⟨rfl, -⟩ <;> simp [pointer?, type]
    refine .found fun key refers => ?_
    rw [RefersTo, none] at refers
    cases refers
  | @array members pointer target type items names =>
    have refers (key : String) : (Json.object members).RefersTo key ↔
        pointer = .string (definitionsPointer ++ key) := by
      simp [RefersTo, pointer?, type, items]
    have attempt := names.attempt unique inside scope
    simp only [propertyShape, type, items, arrayShape, refers]
    generalize resolve visible pointer = result at attempt
    cases result <;> exact attempt.map fun target => Shape.array (.model target)
  | @reference members pointer target untyped found names =>
    have refers (key : String) : (Json.object members).RefersTo key ↔
        pointer = .string (definitionsPointer ++ key) := by
      simp [RefersTo, pointer?, untyped, found]
    have attempt := names.attempt unique inside scope
    simp only [propertyShape, untyped, found, refers]
    generalize resolve visible pointer = result at attempt
    cases result <;> exact attempt.map Shape.model

theorem fields_attempt {required : List String} {properties : List (String × Json)} {fs : List Field}
    (described : List.Forall₂ (DescribesField around required) properties fs) :
    Attempt definitions visible (fun key => ∃ property ∈ properties, property.2.RefersTo key) fs
      (fields visible required properties) := by
  induction described with
  | nil => exact .found (by simp)
  | @cons property f rest more first _ ih =>
    obtain ⟨key, info⟩ := property
    obtain ⟨name, shape, listed⟩ := f
    obtain ⟨rfl, described, required_iff⟩ := first
    obtain rfl : listed = decide (name ∈ required) := by
      rw [Bool.eq_iff_iff, decide_eq_true_iff]
      exact required_iff
    have here := described.attempt unique inside scope name
    simp only [List.exists_mem_cons_iff, fields]
    generalize propertyShape visible name info = first at here
    cases here with
    | missing declared needed unseen => exact .missing declared (.inl needed) unseen
    | found met =>
      generalize fields visible required rest = later at ih
      cases ih with
      | missing declared needed unseen => exact .missing declared (.inr needed) unseen
      | found met' => exact .found fun key needed => needed.elim (met key) (met' key)

/-- A schema without definitions describes one model in all scopes that have all it needs. -/
theorem Describes.attempt {schema : Json} {m : Model} (describes : Describes around schema m)
    (bare : schema.membersUnder "definitions" = []) :
    Attempt definitions visible schema.Needs m (Reflection.reflectIn visible schema) := by
  cases describes with
  | @schema _ members declared properties title description required fs own given type text declares keys _
      listed needed described =>
    obtain rfl : declared = [] := declares.membersUnder.symm.trans bare
    obtain rfl : own = [] := List.map_eq_nil_iff.mp keys
    have attempt := fields_attempt unique inside scope described
    have needs : (Json.object members).Needs = fun key => ∃ property ∈ properties, property.2.RefersTo key := by
      funext key
      simp [Needs, membersUnder, get?, listed]
    have made : declare visible [] [] = .ok [] := by rw [declare]
    rw [reflectIn_of_declare given type text declares made listed needed, needs, List.nil_append]
    exact attempt.map fun fs => Model.mk title description fs []

end

/-- Among all of the definitions the schema under a key, which has none itself, describes the model under it. -/
structure Defines (definitions : Visible) (given : String × Json) (d : Definition) : Prop where
  key : d.key = given.1
  bare : given.2.membersUnder "definitions" = []
  described : ∃ around ⊆ definitions, Describes around given.2 d.model

theorem Describes.defines {schema : Json} {m : Model} (describes : Describes [] schema m) (shallow : schema.Shallow) :
    List.Forall₂ (Defines m.definitions) (schema.membersUnder "definitions") m.definitions := by
  refine ((List.forall₂_and_left _ _).mpr ⟨shallow, describes.declared⟩).imp ?_
  rintro given d ⟨bare, key, around, inside, described⟩
  exact ⟨key, bare, around, by simpa using inside, described⟩

theorem declare_attempt {definitions : Visible} (unique : (definitions.map (·.key)).Nodup)
    {declared : List (String × Json)} {more : List Definition}
    (defined : List.Forall₂ (Defines definitions) declared more) {seen : List Definition}
    (scope : seen ++ more ⊆ definitions) :
    DependenciesFirst (seen.map (·.key)) declared ∧ declare [] seen declared = .ok (seen ++ more) ∨
      ∃ key ∈ definitions.map (·.key), key ∉ seen.map (·.key) ∧ Misplaced declared key ∧
        declare [] seen declared = .error (.undeclared (definitionsPointer ++ key)) := by
  -- By induction on what is still to be read: each definition is found among those before it, or one that it
  -- needs is not among them.
  induction defined generalizing seen with
  | nil => exact .inl (by simp [declare])
  | @cons given d rest more first _ ih =>
    obtain ⟨key, schema⟩ := given
    obtain ⟨name, model⟩ := d
    obtain ⟨rfl, bare, around, inside, described⟩ := first
    have attempt := described.attempt unique inside (List.append_subset.mp scope).1 bare
    have later := @ih (seen ++ [⟨name, model⟩]) (by simpa using scope)
    rw [List.map_append, List.map_singleton, List.append_assoc, List.singleton_append] at later
    simp only [declare, dependenciesFirst_cons, List.append_nil]
    generalize reflectIn seen schema = result at attempt
    cases attempt with
    | @missing key declared needed unseen =>
      exact .inr ⟨key, declared, unseen, ⟨[], _, rest, rfl, needed, List.not_mem_nil⟩, rfl⟩
    | found met =>
      rcases later with ⟨first, made⟩ | ⟨key, declared, unseen, misplaced, refused⟩
      · exact .inl ⟨⟨met, first⟩, made⟩
      · rw [List.mem_append, List.mem_singleton, not_or] at unseen
        exact .inr ⟨key, declared, unseen.1, misplaced.cons unseen.2, refused⟩

section
variable {declared : List (String × Json)}

theorem Declared.redeclare {members own : List (String × Json)} (declares : Declared members own)
    (reordered : declared.Perm own) : ∃ members', (Json.object members).redeclare declared = .object members' ∧
      Declared members' declared ∧ ∀ key, key ≠ "definitions" → find? key members' = find? key members := by
  rcases declares with found | ⟨absent, rfl⟩
  · refine ⟨put "definitions" (.object declared) members, by simp [Json.redeclare, found], ?_, fun key apart => ?_⟩
    · exact .inl (find?_put_same _ _ _)
    · exact find?_put_other apart _ _
  · exact ⟨members, by simp [Json.redeclare, absent], .inr ⟨absent, reordered.eq_nil⟩, fun _ _ => rfl⟩

variable {schema : Json} {m : Model} (describes : Describes [] schema m)
  (reordered : declared.Perm (schema.membersUnder "definitions"))
include describes reordered

theorem Describes.redeclare_error {e : ReflectionError} (refused : declare [] [] declared = .error e) :
    Reflection.reflectIn [] (schema.redeclare declared) = .error e := by
  cases describes with
  | schema given type _ declares =>
    rw [declares.membersUnder] at reordered
    obtain ⟨members, same, declares, kept⟩ := declares.redeclare reordered
    rw [← kept _ (by decide)] at given type
    rw [same, Reflection.reflectIn, objectTitle_eq_ok_iff.mpr ⟨given, type⟩]
    simp only [declares.definitionsMember_eq, refused]

theorem Describes.redeclare_ok (unique : (m.definitions.map (·.key)).Nodup) {definitions : List Definition}
    (permuted : definitions.Perm m.definitions) (made : declare [] [] declared = .ok definitions) :
    Reflection.reflectIn [] (schema.redeclare declared) = .ok { m with definitions := definitions } := by
  cases describes with
  | @schema _ members own properties title description required fs inner given type text declares _ _ listed needed
      described =>
    rw [declares.membersUnder] at reordered
    obtain ⟨members, same, declares, kept⟩ := declares.redeclare reordered
    rw [← kept _ (by decide)] at given type listed
    have needed' : Required members required := by rwa [Required, kept _ (by decide)]
    have text' (t : String) : description = some t ↔ find? "description" members = some (.string t) := by
      rw [kept _ (by decide)]
      exact text t
    have fields := (fields_attempt unique (by simp) permuted.subset described).eq_ok (permuted.map _).symm.subset
    rw [same, reflectIn_of_declare given type text' declares made listed needed', List.append_nil, fields]
    rfl

end

end Reflection

/-- In a schema without definitions inside of definitions the order of the definitions matters only in that each
has to stand after those that its properties refer to. In any such order the schema describes the same model with
its definitions in that order; in any other it is refused for a reference to a definition that is not before it. -/
theorem Model.ofSchema_redeclare {schema : Json} {m : Model} {declared : List (String × Json)}
    (unique : schema.Unrepeated) (shallow : schema.Shallow) (described : Model.ofSchema schema = .ok m)
    (reordered : declared.Perm (schema.membersUnder "definitions")) :
    ((∃ back, Model.ofSchema (schema.redeclare declared) = .ok back) ↔ DependenciesFirst [] declared) ∧
      (DependenciesFirst [] declared → ∃ definitions, definitions.Perm m.definitions ∧
        definitions.map (·.key) = declared.map (·.1) ∧
        Model.ofSchema (schema.redeclare declared) = .ok { m with definitions := definitions }) ∧
      (¬ DependenciesFirst [] declared → ∃ e, Model.ofSchema (schema.redeclare declared) = .error e ∧
        e.family = .reference ∧ ∃ key ∈ declared.map (·.1), Misplaced declared key ∧
          e = .undeclared (definitionsPointer ++ key)) := by
  have describes : Describes [] schema m := describes_of_reflectIn described
  have keys : (m.definitions.map (·.key)).Nodup := by
    rw [describes.keys]
    exact nodup_membersUnder unique _
  obtain ⟨definitions, defined, permuted⟩ := List.perm_comp_forall₂ reordered (describes.defines shallow)
  have named : definitions.map (·.key) = declared.map (·.1) := by
    rw [eq_comm, ← List.forall₂_eq_eq_eq, List.forall₂_map_left_iff, List.forall₂_map_right_iff]
    exact defined.imp fun _ _ defines => defines.key.symm
  rcases declare_attempt keys defined (show [] ++ definitions ⊆ m.definitions from permuted.subset) with
    ⟨first, made⟩ | ⟨key, member, -, misplaced, refused⟩
  · have success := describes.redeclare_ok reordered keys permuted made
    exact ⟨⟨fun _ => first, fun _ => ⟨_, success⟩⟩, fun _ => ⟨definitions, permuted, named, success⟩, absurd first⟩
  · have failure := describes.redeclare_error reordered refused
    have disordered : ¬ DependenciesFirst [] declared := fun first => List.not_mem_nil (first.mem_known misplaced)
    refine ⟨⟨fun ⟨back, success⟩ => ?_, fun first => absurd first disordered⟩, fun first => absurd first disordered,
      fun _ => ⟨_, failure, rfl, key, ?_, misplaced, rfl⟩⟩
    · rw [Model.ofSchema, failure] at success
      cases success
    · rw [← named]
      exact (permuted.map _).mem_iff.mpr member

def Json.sampleBolt : String × Json :=
  ("bolt", .object [("title", .string "Bolt"), ("type", .string "object"),
    ("properties", .object [("size", .object [("type", .string "integer")])])])

def Json.sampleNut : String × Json :=
  ("nut", .object [("title", .string "Nut"), ("type", .string "object"), ("properties", .object [])])

def Json.sampleJoint : String × Json :=
  let reference (key : String) : Json := .object [("$ref", .string (definitionsPointer ++ key))]
  ("joint", .object [("title", .string "Joint"), ("type", .string "object"),
    ("properties", .object [("bolt", reference "bolt"),
      ("nuts", .object [("type", .string "array"), ("items", reference "nut")])])])

def Json.sampleFrame : Json :=
  .object [("title", .string "Frame"), ("type", .string "object"),
    ("definitions", .object [sampleBolt, sampleNut, sampleJoint]),
    ("properties", .object [("joint", .object [("$ref", .string (definitionsPointer ++ "joint"))])])]

def Model.sampleFrame : Model :=
  let bolt := (Model.named "Bolt").addField "size" (.scalar .int) false
  let nut := Model.named "Nut"
  let joint := ((Model.named "Joint").addField "bolt" (.model bolt) false).addField "nuts" (.array (.model nut)) false
  ((((Model.named "Frame").addDefinition "bolt" bolt).addDefinition "nut" nut).addDefinition "joint" joint).addField
    "joint" (.model joint) false

/-- The first two definitions can change places, the last two cannot. -/
theorem Model.sampleFrame_redeclared : Json.sampleFrame.Unrepeated ∧ Json.sampleFrame.Shallow ∧
    Model.ofSchema Json.sampleFrame = .ok Model.sampleFrame ∧
    (∃ definitions, definitions.Perm Model.sampleFrame.definitions ∧
      definitions.map (·.key) = ["nut", "bolt", "joint"] ∧
      Model.ofSchema (Json.sampleFrame.redeclare [sampleNut, sampleBolt, sampleJoint]) =
        .ok { Model.sampleFrame with definitions := definitions }) ∧
    ∃ e, Model.ofSchema (Json.sampleFrame.redeclare [sampleBolt, sampleJoint, sampleNut]) = .error e ∧
      e.family = .reference ∧ ∃ key ∈ ["bolt", "joint", "nut"],
        Misplaced [sampleBolt, sampleJoint, sampleNut] key ∧ e = .undeclared (definitionsPointer ++ key) := by
  have unique : Json.sampleFrame.Unrepeated := by
    simp [Json.sampleFrame, sampleBolt, sampleNut, sampleJoint, Unrepeated, UnrepeatedMembers]
  have shallow : Json.sampleFrame.Shallow := by
    simp [Json.sampleFrame, sampleBolt, sampleNut, sampleJoint, Json.Shallow, membersUnder, get?, find?]
  have described : Model.ofSchema Json.sampleFrame = .ok Model.sampleFrame := rfl
  have swapped : [sampleNut, sampleBolt, sampleJoint].Perm (Json.sampleFrame.membersUnder "definitions") :=
    .swap sampleBolt sampleNut [sampleJoint]
  have torn : [sampleBolt, sampleJoint, sampleNut].Perm (Json.sampleFrame.membersUnder "definitions") :=
    .cons sampleBolt (.swap sampleNut sampleJoint [])
  have first : DependenciesFirst [] [sampleNut, sampleBolt, sampleJoint] := by
    simp [Needs, RefersTo, pointer?, membersUnder, get?, find?, sampleBolt, sampleNut, sampleJoint, or_imp, forall_and]
  have late : ¬ DependenciesFirst [] [sampleBolt, sampleJoint, sampleNut] := by
    simp [Needs, RefersTo, pointer?, membersUnder, get?, find?, sampleBolt, sampleNut, sampleJoint]
  obtain ⟨-, accepted, -⟩ := Model.ofSchema_redeclare unique shallow described swapped
  obtain ⟨-, -, refused⟩ := Model.ofSchema_redeclare unique shallow described torn
  exact ⟨unique, shallow, described, accepted first, refused late⟩

end Schemata
