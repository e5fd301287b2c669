import Schemata.Proofs.Model.Hoisting

/-! Models whose schemas can be read back: what is asked of every model that they reach. A model reaches
finitely many others, its parts, so the condition can be checked. -/
namespace Schemata

mutual
/-- The model and all that it reaches, as often as they occur. -/
def Model.parts : Model → List Model
  | ⟨name, description, fields, definitions⟩ =>
    ⟨name, description, fields, definitions⟩ :: (Definition.parts definitions ++ Field.parts fields)

def Definition.parts : List Definition → List Model
  | [] => []
  | ⟨_, model⟩ :: rest => model.parts ++ Definition.parts rest

def Field.parts : List Field → List Model
  | [] => []
  | ⟨_, shape, _⟩ :: rest => shape.parts ++ Field.parts rest

def Shape.parts : Shape → List Model
  | .scalar _ => []
  | .model target => target.parts
  | .array item => item.parts
end

/-- What stands below the model. -/
def Model.innerParts (m : Model) : List Model := Definition.parts m.definitions ++ Field.parts m.fields

theorem Model.parts_eq (m : Model) : m.parts = m :: m.innerParts := by
  cases m
  simp [Model.parts, Model.innerParts]

theorem Model.self_mem_parts (m : Model) : m ∈ m.parts := by simp [m.parts_eq]

theorem Definition.mem_parts {ds : List Definition} {t : Model} :
    t ∈ Definition.parts ds ↔ ∃ d ∈ ds, t ∈ d.model.parts := by
  induction ds with
  | nil => simp [Definition.parts]
  | cons d rest ih =>
    cases d
    simp [Definition.parts, ih]

theorem Shape.mem_parts {s : Shape} {t : Model} :
    t ∈ s.parts ↔ ∃ u, s.target? = some u ∧ t ∈ u.parts := by
  fun_induction Shape.target? s with
  | case1 => simp [Shape.parts]
  | case2 target => simp [Shape.parts]
  | case3 item ih => simpa [Shape.parts] using ih

theorem Field.mem_parts {fs : List Field} {t : Model} :
    t ∈ Field.parts fs ↔ ∃ f ∈ fs, ∃ u, f.shape.target? = some u ∧ t ∈ u.parts := by
  induction fs with
  | nil => simp [Field.parts]
  | cons f rest ih =>
    cases f
    simp [Field.parts, ih, Shape.mem_parts]

theorem Model.mem_innerParts {m t : Model} : t ∈ m.innerParts ↔ ∃ s, m.Leads s ∧ t ∈ s.parts := by
  rw [Model.innerParts, List.mem_append, Definition.mem_parts, Field.mem_parts]
  constructor
  · rintro (⟨d, member, inside⟩ | ⟨f, member, u, target, inside⟩)
    · exact ⟨_, .definition member, inside⟩
    · exact ⟨u, .field member target, inside⟩
  · rintro ⟨s, ⟨key, offers⟩, inside⟩
    cases offers with
    | definition member => exact .inl ⟨_, member, inside⟩
    | field member target => exact .inr ⟨_, member, s, target, inside⟩

theorem Model.mem_parts_of_reaches {m t : Model} (reached : m.Reaches t) : t ∈ m.parts := by
  induction reached using Relation.ReflTransGen.head_induction_on with
  | refl => exact t.self_mem_parts
  | head leads _ ih =>
    rw [Model.parts_eq]
    exact List.mem_cons_of_mem _ (Model.mem_innerParts.mpr ⟨_, leads, ih⟩)

theorem Model.reaches_of_mem_parts {m t : Model} (member : t ∈ m.parts) : m.Reaches t := by
  -- By induction on the size, which every step makes smaller.
  rw [Model.parts_eq, List.mem_cons] at member
  rcases member with rfl | inner
  · exact .refl
  · obtain ⟨s, leads, inside⟩ := Model.mem_innerParts.mp inner
    exact .head leads (Model.reaches_of_mem_parts inside)
termination_by sizeOf m
decreasing_by exact leads.sizeOf_lt

theorem Model.mem_parts {m t : Model} : t ∈ m.parts ↔ m.Reaches t :=
  ⟨Model.reaches_of_mem_parts, Model.mem_parts_of_reaches⟩

theorem Model.mem_innerParts_iff_below {m t : Model} : t ∈ m.innerParts ↔ m.Below t := by
  simp only [Model.mem_innerParts, Model.mem_parts, Relation.TransGen.head'_iff]

/-- A text that a pointer can end in. -/
def PointerKey (key : String) : Prop := key ≠ "" ∧ '/' ∉ key.toList

/-- Arrays hold models directly. -/
def Shape.Direct : Shape → Prop
  | .array (.model _) => True
  | .array _ => False
  | _ => True

/-- What a model has to meet, with all that it reaches, for its schema to be read back. -/
structure Model.Sound (root : Model) : Prop where
  distinct : root.AllDistinct
  arrays : ∀ t, root.Reaches t → ∀ f ∈ t.fields, f.shape.Direct
  keys : ∀ t, root.Reaches t → ∀ d ∈ t.definitions, PointerKey d.key
  names : ∀ t, root.Below t → PointerKey t.name

theorem PointerKey.numbered {preferred : String} (good : PointerKey preferred) (n : Nat) :
    PointerKey (numberedKey preferred n) := by
  constructor
  · intro empty
    have lists := congrArg String.toList empty
    simp [numberedKey_toList, Text.decimal_ne_nil] at lists
  · rw [numberedKey_toList, List.mem_append]
    rintro (inside | digit)
    · exact good.2 inside
    · exact absurd (Text.decimal_digits n _ digit) (by decide)

theorem PointerKey.free {preferred : String} (good : PointerKey preferred) (taken : List String) :
    PointerKey (freeKey preferred taken) := by
  rcases freeKey_form preferred taken with same | ⟨n, same⟩
  · rwa [same]
  · rw [same]
    exact good.numbered n

theorem Model.Sound.asked {root t : Model} {key : String} (sound : root.Sound) (asks : root.Asks key t) :
    PointerKey key := by
  obtain ⟨s, reached, offers⟩ := asks
  cases offers with
  | definition member => exact sound.keys s reached _ member
  | field member target => exact sound.names t (.tail' reached (.field member target))

theorem Model.Sound.hoisted {root : Model} (sound : root.Sound) {entry : String × Model}
    (member : entry ∈ root.hoisted) : PointerKey entry.1 := by
  obtain ⟨key, taken, asks, same⟩ := root.hoisted_grows.1.asked member
  rw [same]
  exact (sound.asked asks).free taken

instance (m : Model) : Decidable m.Distinct := inferInstanceAs (Decidable (List.Nodup _))

instance (m : Model) : Decidable m.AllDistinct :=
  decidable_of_iff (∀ t ∈ m.parts, t.Distinct) (by simp only [Model.AllDistinct, Model.mem_parts])

instance (key : String) : Decidable (PointerKey key) := inferInstanceAs (Decidable (_ ∧ _))

instance : DecidablePred Shape.Direct
  | .scalar _ => .isTrue trivial
  | .model _ => .isTrue trivial
  | .array (.model _) => .isTrue trivial
  | .array (.scalar _) => .isFalse id
  | .array (.array _) => .isFalse id

theorem Model.sound_iff (m : Model) : m.Sound ↔
    (∀ t ∈ m.parts, t.Distinct ∧ (∀ f ∈ t.fields, f.shape.Direct) ∧
      ∀ d ∈ t.definitions, PointerKey d.key) ∧ ∀ t ∈ m.innerParts, PointerKey t.name := by
  simp only [Model.mem_parts, Model.mem_innerParts_iff_below]
  constructor
  · intro sound
    exact ⟨fun t reached => ⟨sound.distinct t reached, sound.arrays t reached, sound.keys t reached⟩,
      sound.names⟩
  · rintro ⟨reached, below⟩
    exact ⟨fun t path => (reached t path).1, fun t path => (reached t path).2.1,
      fun t path => (reached t path).2.2, below⟩

instance (m : Model) : Decidable m.Sound := decidable_of_iff _ m.sound_iff.symm

end Schemata
