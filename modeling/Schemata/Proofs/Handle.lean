import Schemata.Proofs.Addressing
import Schemata.Proofs.Model.Canonical
import Schemata.Proofs.Model.Document

/-! What the schema of a model, and so its handle, says of the model: its name, its description and its fields, up
to definitions inside of what the fields hold. Keys are handed out anew for every model, so a key means something
in its own schema only. Two equal schemas give the same keys in the same order, and what the n-th key stands for
is settled by the keys before it. -/
namespace Schemata

open Json Reflection

theorem Scalar.eq_of_keyword_eq {a b : Scalar} (same : a.keyword = b.keyword) : a = b := by
  cases a <;> cases b <;> simp_all [Scalar.keyword]

theorem Shape.erase_eq_of_schema_eq {entriesA entriesB : Hoisted} {s t : Shape}
    (same : s.schema entriesA = t.schema entriesB)
    (agree : ∀ u w, s.target? = some u → t.target? = some w → entriesA.keyOf u = entriesB.keyOf w →
      u.erase = w.erase) : s.erase = t.erase := by
  induction s using Shape.target?.induct generalizing t with
  | case1 kind =>
    cases t with
    | scalar other =>
      have words : kind.keyword = other.keyword := by simpa [Shape.schema] using same
      rw [Scalar.eq_of_keyword_eq words]
    | model target => simp [Shape.schema] at same
    | array item => simp [Shape.schema] at same
  | case2 target =>
    cases t with
    | model other =>
      have keys : entriesA.keyOf target = entriesB.keyOf other := by
        simpa only [Shape.schema, Json.object.injEq, List.cons.injEq, Prod.mk.injEq, Json.string.injEq, true_and,
          and_true, String.append_right_inj] using same
      rw [Shape.erase, Shape.erase, agree target other rfl rfl keys]
    | scalar kind => simp [Shape.schema] at same
    | array item => simp [Shape.schema] at same
  | case3 item ih =>
    cases t with
    | array other =>
      have inner : item.schema entriesA = other.schema entriesB := by simpa [Shape.schema] using same
      rw [Shape.erase, Shape.erase, ih inner agree]
    | scalar kind => simp [Shape.schema] at same
    | model target => simp [Shape.schema] at same

theorem map_eq_map_of {α β γ δ : Type} {xs : List α} {ys : List β} {f : α → γ} {g : β → γ} {h : α → δ} {k : β → δ}
    (same : xs.map f = ys.map g) (settles : ∀ x ∈ xs, ∀ y ∈ ys, f x = g y → h x = k y) :
    xs.map h = ys.map k := by
  induction xs generalizing ys with
  | nil =>
    cases ys with
    | nil => rfl
    | cons y ys => cases same
  | cons x xs ih =>
    cases ys with
    | nil => cases same
    | cons y ys =>
      rw [List.map_cons, List.map_cons, List.cons.injEq] at same
      rw [List.map_cons, List.map_cons, settles x List.mem_cons_self y List.mem_cons_self same.1,
        ih same.2 fun x inside y inside' => settles x (List.mem_cons_of_mem _ inside) y (List.mem_cons_of_mem _ inside')]

theorem Model.erase_eq_of_schemaMembers_eq {entriesA entriesB : Hoisted} {s t : Model} (distinctS : s.Distinct)
    (distinctT : t.Distinct) (moreS moreT : List (String × Json))
    (freeS : find? "description" moreS = none ∧ find? "required" moreS = none)
    (freeT : find? "description" moreT = none ∧ find? "required" moreT = none)
    (same : s.schemaMembers entriesA ++ moreS = t.schemaMembers entriesB ++ moreT)
    (agree : ∀ u w, s.Leads u → t.Leads w → entriesA.keyOf u = entriesB.keyOf w → u.erase = w.erase) :
    s.erase = t.erase := by
  have names : s.name = t.name := by
    have titles := s.find?_title entriesA moreS
    rw [same, t.find?_title] at titles
    simpa using titles.symm
  have descriptions : s.description = t.description := by
    rw [← s.find?_description entriesA freeS.1, same, t.find?_description entriesB freeT.1]
  have needed : s.requiredNames = t.requiredNames := by
    have read := s.requiredNames_schema entriesA freeS.2
    rw [same, names, t.requiredNames_schema entriesB freeT.2, Except.ok.injEq] at read
    exact read.symm
  have properties : (s.fields.map fun f => (f.name, f.shape.schema entriesA)) =
      t.fields.map fun f => (f.name, f.shape.schema entriesB) := by
    have given := s.find?_properties entriesA distinctS moreS
    rw [same, t.find?_properties entriesB distinctT] at given
    simpa only [Option.some.injEq, Json.object.injEq] using given.symm
  have fields : s.fields.map Field.erase = t.fields.map Field.erase := by
    refine map_eq_map_of properties fun f inS g inT both => ?_
    obtain ⟨name, shape⟩ := Prod.mk.inj both
    have required : f.required = g.required := by
      rw [Bool.eq_iff_iff, ← Model.mem_requiredNames distinctS inS, ← Model.mem_requiredNames distinctT inT, needed,
        name]
    have erased := Shape.erase_eq_of_schema_eq shape fun u w targetU targetW =>
      agree u w (.field inS targetU) (.field inT targetW)
    rw [Field.erase, Field.erase, name, erased, required]
  obtain ⟨name, description, fieldsS, definitionsS⟩ := s
  obtain ⟨name', description', fieldsT, definitionsT⟩ := t
  rw [Model.erase, Model.erase, Field.eraseAll_eq_map, Field.eraseAll_eq_map, fields]
  simp_all

theorem Hoisted.erase_eq_of_keyOf_eq {beforeA beforeB : Hoisted} (afterA afterB : Hoisted)
    (unique : beforeA.keys.Nodup) (same : beforeA.erased = beforeB.erased) {u w : Model}
    (inA : u ∈ beforeA.models) (inB : w ∈ beforeB.models)
    (keys : (beforeA ++ afterA).keyOf u = (beforeB ++ afterB).keyOf w) : u.erase = w.erase := by
  obtain ⟨x, insideX, rfl, keyX⟩ := keyOf_of_mem afterA inA
  obtain ⟨y, insideY, rfl, keyY⟩ := keyOf_of_mem afterB inB
  have erasedX : (x.1, x.2.erase) ∈ beforeA.erased := List.mem_map_of_mem insideX
  have erasedY : (y.1, y.2.erase) ∈ beforeA.erased := same ▸ List.mem_map_of_mem insideY
  have unique' : beforeA.erased.keys.Nodup := by rwa [keys_erased]
  rw [keyX, keyY] at keys
  exact congrArg Prod.snd (List.inj_on_of_nodup_map unique' erasedX erasedY keys)

section
variable {a b : Model} (distinctA : a.AllDistinct) (distinctB : b.AllDistinct)
include distinctA distinctB

theorem Model.erased_eq_of_entries_eq {beforeA afterA beforeB afterB : Hoisted}
    (partsA : a.hoisted = beforeA ++ afterA) (partsB : b.hoisted = beforeB ++ afterB)
    (earlier : beforeA.erased = beforeB.erased)
    (later : (afterA.map fun entry => (entry.1, Json.object (entry.2.schemaMembers a.hoisted))) =
      afterB.map fun entry => (entry.1, Json.object (entry.2.schemaMembers b.hoisted))) :
    a.hoisted.erased = b.hoisted.erased := by
  -- By induction on the entries that are left: each is settled by those before it.
  induction afterA generalizing beforeA beforeB afterB with
  | nil =>
    cases afterB with
    | nil => rw [partsA, partsB, List.append_nil, List.append_nil, earlier]
    | cons y restB => cases later
  | cons x restA ih =>
    cases afterB with
    | nil => cases later
    | cons y restB =>
      obtain ⟨key, modelA⟩ := x
      obtain ⟨key', modelB⟩ := y
      simp only [List.map_cons, List.cons.injEq, Prod.mk.injEq, Json.object.injEq] at later
      obtain ⟨⟨rfl, members⟩, later⟩ := later
      have unique : beforeA.keys.Nodup := (Hoisted.nodup_before a.hoisted_grows.1.nodup_keys partsA).1
      have distinctA' := distinctA _ (@Model.reaches_hoisted a (key, modelA) (by simp [partsA]))
      have distinctB' := distinctB _ (@Model.reaches_hoisted b (key, modelB) (by simp [partsB]))
      have erased : modelA.erase = modelB.erase := by
        refine Model.erase_eq_of_schemaMembers_eq distinctA' distinctB' [] [] ⟨rfl, rfl⟩ ⟨rfl, rfl⟩
          (by rw [List.append_nil, List.append_nil, members]) fun u w leadsU leadsW keys => ?_
        rw [partsA, partsB] at keys
        exact Hoisted.erase_eq_of_keyOf_eq _ _ unique earlier (a.hoisted_grows.1.ordered partsA leadsU)
          (b.hoisted_grows.1.ordered partsB leadsW) keys
      refine @ih (beforeA ++ [(key, modelA)]) (beforeB ++ [(key, modelB)]) restB (by simp [partsA]) (by simp [partsB])
        ?_ later
      rw [Hoisted.erased, List.map_append, ← Hoisted.erased, earlier]
      simp [Hoisted.erased, erased]

theorem Model.erase_eq_of_toSchema_eq (same : a.toSchema = b.toSchema) : a.erase = b.erase := by
  have definitions := a.find?_definitions
  rw [same, b.find?_definitions, Json.object.injEq] at definitions
  have entries := Model.erased_eq_of_entries_eq distinctA distinctB (List.nil_append _).symm (List.nil_append _).symm
    rfl definitions.symm
  refine Model.erase_eq_of_schemaMembers_eq distinctA.here distinctB.here _ _ ?_ ?_ (Json.object.inj same)
    fun u w leadsU leadsW keys => ?_
  · constructor <;> split <;> rfl
  · constructor <;> split <;> rfl
  · refine Hoisted.erase_eq_of_keyOf_eq [] [] a.hoisted_grows.1.nodup_keys entries (a.hoisted_grows.2 u leadsU)
      (b.hoisted_grows.2 w leadsW) ?_
    rwa [List.append_nil, List.append_nil]

/-- Two models with one schema text, and so two with one handle, have one name, one description and the same
fields, up to definitions inside of what these hold, and bind every payload alike. Nothing is asked of keys, of
names and of what arrays hold. -/
theorem Model.handle_determines (same : a.toSchema.text = b.toSchema.text ∨
      Checksum.CollisionFree [a.toSchema.text, b.toSchema.text] ∧ a.handle = b.handle) :
    a.name = b.name ∧ a.description = b.description ∧ Field.eraseAll a.fields = Field.eraseAll b.fields ∧
      ∀ payload, a.bind payload = b.bind payload := by
  have texts : a.toSchema.text = b.toSchema.text := by
    rcases same with texts | ⟨collisionFree, handles⟩
    · exact texts
    · exact collisionFree _ (by simp) _ (by simp) (congrArg Handle.checksum handles)
  have erased := Model.erase_eq_of_toSchema_eq distinctA distinctB
    (Json.eq_of_text_eq a.exact_toSchema b.exact_toSchema texts)
  have parts := erased
  obtain ⟨name, description, fields, definitions⟩ := a
  obtain ⟨name', description', fields', definitions'⟩ := b
  rw [Model.erase, Model.erase, Model.mk.injEq] at parts
  exact ⟨parts.1, parts.2.1, parts.2.2.1, Model.bind_eq_of_erase_eq erased⟩

end

/-- A model under a key that no pointer can have, held by an array of arrays and by a model that declares the
given definitions, which nothing refers to. -/
def Model.sampleGrid (definitions : List Definition) : Model :=
  let cell := (Model.named "Cell").addField "id" (.scalar .int) true
  let edge : Model := ⟨"Edge", none, [⟨"to", .model cell, true⟩], definitions⟩
  (((Model.named "Grid").addDefinition "a/b" cell).addField "rows" (.array (.array (.model cell))) true).addField
    "edges" (.array (.model edge)) false

/-- The definition of the cells once more. -/
def Model.sampleCell : Definition := ⟨"K", (Model.named "Cell").addField "id" (.scalar .int) true⟩

theorem Model.sampleGrid_determined :
    sampleGrid [sampleCell] ≠ sampleGrid [] ∧ (sampleGrid [sampleCell]).AllDistinct ∧ (sampleGrid []).AllDistinct ∧
    Checksum.CollisionFree [(sampleGrid [sampleCell]).toSchema.text, (sampleGrid []).toSchema.text] ∧
    (sampleGrid [sampleCell]).handle = (sampleGrid []).handle ∧
    (sampleGrid [sampleCell]).name = (sampleGrid []).name ∧
    (sampleGrid [sampleCell]).description = (sampleGrid []).description ∧
    Field.eraseAll (sampleGrid [sampleCell]).fields = Field.eraseAll (sampleGrid []).fields ∧
    ∀ payload, (sampleGrid [sampleCell]).bind payload = (sampleGrid []).bind payload := by
  have different : sampleGrid [sampleCell] ≠ sampleGrid [] := by decide +kernel
  have distinct : (sampleGrid [sampleCell]).AllDistinct ∧ (sampleGrid []).AllDistinct := by decide +kernel
  have same : (sampleGrid [sampleCell]).toSchema = (sampleGrid []).toSchema := by decide +kernel
  have handles : (sampleGrid [sampleCell]).handle = (sampleGrid []).handle := by
    rw [Model.handle, Model.handle, same]
    rfl
  have collisionFree :
      Checksum.CollisionFree [(sampleGrid [sampleCell]).toSchema.text, (sampleGrid []).toSchema.text] := by
    rw [same]
    intro x first y second _
    simp only [List.mem_cons, List.not_mem_nil, or_false, or_self] at first second
    rw [first, second]
  exact ⟨different, distinct.1, distinct.2, collisionFree, handles,
    Model.handle_determines distinct.1 distinct.2 (.inr ⟨collisionFree, handles⟩)⟩

end Schemata
