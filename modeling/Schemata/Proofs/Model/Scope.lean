import Schemata.Proofs.Model.Storage

/-! Models that schemas describe. Whatever a field of such a model leads to is declared before, by the model
itself or by a model around it, so all keys in its own schema come from declarations; that schema is read back
exactly if a pointer can have every key that is referred to. -/
namespace Schemata

open Json Reflection

mutual
/-- Fields have different names, arrays hold models directly, and the models that fields lead to are declared
by the model or by those around it. -/
def Model.Scoped (outer : List Model) : Model → Prop
  | ⟨_, _, fields, definitions⟩ =>
    Definition.Scoped outer definitions ∧ (fields.map (·.name)).Nodup ∧ ∀ f ∈ fields, f.shape.Direct ∧
      ∀ t, f.shape.target? = some t → t ∈ outer ++ definitions.map (·.model)

/-- Each definition sees those before it. -/
def Definition.Scoped (outer : List Model) : List Definition → Prop
  | [] => True
  | ⟨_, model⟩ :: rest => model.Scoped outer ∧ Definition.Scoped (outer ++ [model]) rest
end

theorem append_subset_right {α : Type} {outer outer' : List α} (more : outer ⊆ outer') (inner : List α) :
    outer ++ inner ⊆ outer' ++ inner :=
  List.append_subset.mpr ⟨List.subset_append_of_subset_left _ more, List.subset_append_right _ _⟩

mutual
theorem Model.Scoped.mono : ∀ {m : Model} {outer outer' : List Model}, outer ⊆ outer' → m.Scoped outer →
    m.Scoped outer'
  | ⟨_, _, fields, definitions⟩, _, _, more, ⟨inner, distinct, seen⟩ => by
    refine ⟨Definition.Scoped.mono more inner, distinct, fun f member => ⟨(seen f member).1, fun t target => ?_⟩⟩
    exact append_subset_right more _ ((seen f member).2 t target)

theorem Definition.Scoped.mono : ∀ {ds : List Definition} {outer outer' : List Model}, outer ⊆ outer' →
    Definition.Scoped outer ds → Definition.Scoped outer' ds
  | [], _, _, _, _ => trivial
  | ⟨_, _⟩ :: _, _, _, more, ⟨first, later⟩ =>
    ⟨first.mono more, Definition.Scoped.mono (append_subset_right more _) later⟩
end

theorem Definition.scoped_iff {outer : List Model} {ds : List Definition} : Definition.Scoped outer ds ↔
    ∀ (i : Nat) (d : Definition), ds[i]? = some d → d.model.Scoped (outer ++ (ds.take i).map (·.model)) := by
  induction ds generalizing outer with
  | nil => simp [Definition.Scoped]
  | cons first rest ih =>
    obtain ⟨key, model⟩ := first
    rw [Definition.Scoped, ih]
    constructor
    · rintro ⟨here, later⟩ i d put
      cases i with
      | zero =>
        obtain rfl : (⟨key, model⟩ : Definition) = d := by simpa using put
        simpa using here
      | succ i => simpa using later i d put
    · intro each
      exact ⟨by simpa using each 0 ⟨key, model⟩ rfl, fun i d put => by simpa using each (i + 1) d put⟩

mutual
/-- What holds of fields in scope holds of those of every model that is reached. -/
theorem Model.Scoped.reached : ∀ {m : Model} {outer : List Model}, m.Scoped outer →
    (∀ t ∈ outer, ∀ u, t.Reaches u → u.Distinct ∧ ∀ f ∈ u.fields, f.shape.Direct) →
    ∀ u, m.Reaches u → u.Distinct ∧ ∀ f ∈ u.fields, f.shape.Direct
  | ⟨name, description, fields, definitions⟩, outer, ⟨inner, distinct, seen⟩, around, u, reached => by
    have declared := Definition.Scoped.reached inner around
    rcases Relation.ReflTransGen.cases_head reached with rfl | ⟨t, ⟨key, offers⟩, further⟩
    · exact ⟨distinct, fun f member => (seen f member).1⟩
    · cases offers with
      | @definition d member => exact declared d member u further
      | field member target =>
        rcases List.mem_append.mp ((seen _ member).2 t target) with outside | inside
        · exact around t outside u further
        · obtain ⟨d, member, rfl⟩ := List.mem_map.mp inside
          exact declared d member u further

theorem Definition.Scoped.reached : ∀ {ds : List Definition} {outer : List Model}, Definition.Scoped outer ds →
    (∀ t ∈ outer, ∀ u, t.Reaches u → u.Distinct ∧ ∀ f ∈ u.fields, f.shape.Direct) →
    ∀ d ∈ ds, ∀ u, d.model.Reaches u → u.Distinct ∧ ∀ f ∈ u.fields, f.shape.Direct
  | [], _, _, _, _, member => absurd member List.not_mem_nil
  | ⟨_, model⟩ :: rest, outer, ⟨first, later⟩, around, d, member => by
    have here := first.reached around
    rcases List.mem_cons.mp member with rfl | member
    · exact here
    · refine Definition.Scoped.reached later (fun t among => ?_) d member
      rcases List.mem_append.mp among with outside | last
      · exact around t outside
      · rw [List.mem_singleton.mp last]
        exact here
end

namespace Reflection

variable {visible : Visible}

theorem Names.mem {pointer : Json} {target : Model} (names : Names visible pointer target) :
    target ∈ visible.map (·.model) := by
  obtain ⟨key, nearer, further, -, -, rfl, -⟩ := names
  simp

theorem DescribesShape.scoped {info : Json} {s : Shape} (describes : DescribesShape visible info s) :
    s.Direct ∧ ∀ t, s.target? = some t → t ∈ visible.map (·.model) := by
  cases describes with
  | scalar type word => exact ⟨trivial, nofun⟩
  | array type items names =>
    refine ⟨trivial, ?_⟩
    rintro t ⟨rfl⟩
    exact names.mem
  | reference untyped pointer names =>
    refine ⟨trivial, ?_⟩
    rintro t ⟨rfl⟩
    exact names.mem

theorem scoped_of_describesFields {required : List String} {properties : List (String × Json)} {fs : List Field}
    (described : List.Forall₂ (DescribesField visible required) properties fs) :
    fs.map (·.name) = properties.map (·.1) ∧
      ∀ f ∈ fs, f.shape.Direct ∧ ∀ t, f.shape.target? = some t → t ∈ visible.map (·.model) := by
  induction described with
  | nil => exact ⟨rfl, nofun⟩
  | cons first _ ih => exact ⟨by simp [first.name, ih.1], List.forall_mem_cons.mpr ⟨first.shape.scoped, ih.2⟩⟩

theorem Declared.unrepeated {members declared : List (String × Json)} (declares : Declared members declared)
    (unique : UnrepeatedMembers members) {i : Nat} {key : String} {inner : Json}
    (given : declared[i]? = some (key, inner)) : inner.Unrepeated := by
  rcases declares with found | ⟨-, rfl⟩
  · have below := (unrepeatedMembers_iff.mp unique _ (mem_of_find? found)).2
    exact unrepeatedMembers_iff.mp below _ (List.mem_of_getElem? given)
  · cases given

/-- A schema describes a model whose fields lead to what is declared before them. -/
theorem Describes.scoped {schema : Json} {outer : Visible} {m : Model} (describes : Describes outer schema m)
    (unrepeated : schema.Unrepeated) : m.Scoped (outer.map (·.model)) := by
  induction describes with
  | @schema outer members declared properties title description required fields definitions _ _ _ declares keys _
      listed _ described each =>
    have unique := unrepeated.2
    obtain ⟨names, within⟩ := scoped_of_describesFields described
    have swap {inner : List Definition} :
        ((inner ++ outer).map (·.model)) ⊆ outer.map (·.model) ++ inner.map (·.model) := by
      intro t among
      rw [List.map_append, List.mem_append] at among
      exact List.mem_append.mpr among.symm
    refine ⟨Definition.scoped_iff.mpr fun i d put => ?_, ?_, fun f member => ?_⟩
    · obtain ⟨key, model⟩ := d
      obtain ⟨⟨_, inner⟩, given, rfl⟩ := exists_getElem? keys.symm put
      exact (each i _ inner model given put (declares.unrepeated unique given)).mono swap
    · rw [names]
      exact (unrepeatedMembers_iff.mp unique _ (mem_of_find? listed)).1
    · exact ⟨(within f member).1, fun t target => swap ((within f member).2 t target)⟩

end Reflection

/-- Some reached model declares `t` under `key`. -/
def Model.Declares (root : Model) (key : String) (t : Model) : Prop :=
  ∃ s, root.Reaches s ∧ ∃ d ∈ s.definitions, d.key = key ∧ d.model = t

theorem Model.Declares.asks {root t : Model} {key : String} (declares : root.Declares key t) :
    root.Asks key t := by
  obtain ⟨s, reached, d, member, rfl, rfl⟩ := declares
  exact ⟨s, reached, .definition member⟩

theorem Model.Declares.reaches {root t : Model} {key : String} (declares : root.Declares key t) :
    root.Reaches t := declares.asks.below.to_reflTransGen

/-- Every entry has a free form of a key under which its model is declared. -/
def Hoisted.Declared (root : Model) (entries : Hoisted) : Prop :=
  ∀ entry ∈ entries, ∃ key taken, root.Declares key entry.2 ∧ entry.1 = freeKey key taken

mutual
/-- In its scope a model adds what it and the models below it declare, and itself; its fields add nothing. -/
theorem Model.hoist_declared : ∀ {m root : Model} {key : String} {out : Hoisted} {outer : List Model},
    m.Scoped outer → outer ⊆ out.models → root.Declares key m → Hoisted.Declared root out →
    Hoisted.Declared root (m.hoist key out)
  | ⟨name, description, fields, definitions⟩, root, key, out, outer, ⟨inner, _, seen⟩, around, declares,
    earlier => by
    unfold Model.hoist
    split
    · exact earlier
    · have declared : ∀ d ∈ definitions, root.Declares d.key d.model :=
        fun d member => ⟨_, declares.reaches, d, member, rfl, rfl⟩
      have grown := Definition.hoistAll_grows definitions root out fun d member => (declared d member).asks
      have known : ∀ f ∈ fields, ∀ t, f.shape.target? = some t →
          t ∈ Hoisted.models (Definition.hoistAll out definitions) := by
        intro f member t target
        rcases List.mem_append.mp ((seen f member).2 t target) with outside | inside
        · exact grown.1.subset (around outside)
        · obtain ⟨d, own, rfl⟩ := List.mem_map.mp inside
          exact grown.2 d own
      rw [Field.hoistAll_of_mem known]
      intro entry member
      rcases List.mem_append.mp member with before | last
      · exact Definition.hoistAll_declared inner around declared earlier entry before
      · rw [List.mem_singleton.mp last]
        exact ⟨key, _, declares, rfl⟩

theorem Definition.hoistAll_declared : ∀ {ds : List Definition} {root : Model} {out : Hoisted}
    {outer : List Model}, Definition.Scoped outer ds → outer ⊆ out.models →
    (∀ d ∈ ds, root.Declares d.key d.model) → Hoisted.Declared root out →
    Hoisted.Declared root (Definition.hoistAll out ds)
  | [], _, _, _, _, _, _, earlier => earlier
  | ⟨key, model⟩ :: rest, root, out, outer, ⟨first, later⟩, around, declares, earlier => by
    have here := declares _ List.mem_cons_self
    have grown := Model.hoist_grows model root key out here.asks
    have more : outer ++ [model] ⊆ Hoisted.models (model.hoist key out) :=
      List.append_subset.mpr ⟨fun t outside => grown.1.subset (around outside), by simpa using grown.2⟩
    rw [Definition.hoistAll]
    exact Definition.hoistAll_declared later more (fun d member => declares d (List.mem_cons_of_mem _ member))
      (Model.hoist_declared first around here earlier)
end

theorem Model.Scoped.declared {m : Model} (closed : m.Scoped []) : Hoisted.Declared m m.hoisted := by
  obtain ⟨name, description, fields, definitions⟩ := m
  obtain ⟨inner, -, seen⟩ := closed
  let m : Model := ⟨name, description, fields, definitions⟩
  have declares : ∀ d ∈ definitions, m.Declares d.key d.model := fun d member => ⟨m, .refl, d, member, rfl, rfl⟩
  have grown := Definition.hoistAll_grows definitions m [] fun d member => (declares d member).asks
  have known : ∀ f ∈ fields, ∀ t, f.shape.target? = some t →
      t ∈ Hoisted.models (Definition.hoistAll [] definitions) := by
    intro f member t target
    obtain ⟨d, own, rfl⟩ := List.mem_map.mp ((seen f member).2 t target)
    exact grown.2 d own
  rw [Model.hoisted, Field.hoistAll_of_mem known]
  exact Definition.hoistAll_declared inner (List.nil_subset _) declares nofun

/-- If pointers can have all declared keys, they can have all that a scoped model is stored with. -/
theorem Model.Scoped.pointable {m : Model} (closed : m.Scoped [])
    (keys : ∀ t, m.Reaches t → ∀ d ∈ t.definitions, PointerKey d.key) : m.Pointable := by
  refine Model.pointable_of_hoisted fun entry inside => ?_
  obtain ⟨key, taken, ⟨u, further, d, declared, rfl, -⟩, free⟩ := closed.declared entry inside
  rw [free]
  exact (keys u further d declared).free taken

end Schemata
