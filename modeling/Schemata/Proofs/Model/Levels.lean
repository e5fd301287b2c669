import Schemata.Proofs.Model.Reach

/-! The levels of a model, which are what a payload of it is checked against: the model itself and the models
that its fields hold. Definitions are no levels, unless a field holds them as well. -/
namespace Schemata

/-- A field of the model holds the other one, in an array or not. -/
def Model.Nests (m t : Model) : Prop := ∃ f ∈ m.fields, f.shape.target? = some t

abbrev Model.Level : Model → Model → Prop := Relation.ReflTransGen Model.Nests

theorem Model.Nests.leads {m t : Model} (nests : m.Nests t) : m.Leads t := by
  obtain ⟨f, member, target⟩ := nests
  exact .field member target

theorem Model.Level.reaches {m t : Model} (level : m.Level t) : m.Reaches t :=
  Relation.ReflTransGen.mono (fun _ _ => Model.Nests.leads) _ _ level

theorem Model.AllDistinct.levels {m : Model} (all : m.AllDistinct) : ∀ t, m.Level t → t.Distinct :=
  fun t level => all t level.reaches

/-- Every level of what the shape holds has the property. -/
def Shape.Each (P : Model → Prop) (s : Shape) : Prop := ∀ t, s.target? = some t → ∀ u, t.Level u → P u

theorem Shape.each_model {P : Model → Prop} {m : Model} (all : ∀ t, m.Level t → P t) : (Shape.model m).Each P := by
  rintro _ ⟨rfl⟩
  exact all

theorem Shape.Each.here {P : Model → Prop} {m : Model} (each : (Shape.model m).Each P) : P m :=
  each m rfl m .refl

theorem Shape.Each.field {P : Model → Prop} {m : Model} (each : (Shape.model m).Each P) {f : Field}
    (member : f ∈ m.fields) : f.shape.Each P :=
  fun _ target u level => each m rfl u (.head ⟨f, member, target⟩ level)

theorem Shape.Each.item {P : Model → Prop} {item : Shape} (each : (Shape.array item).Each P) : item.Each P := each

theorem Field.sizeOf_shape_lt {m : Model} {f : Field} (member : f ∈ m.fields) : sizeOf f.shape < sizeOf m := by
  rcases m with ⟨name, description, fields, definitions⟩
  have inside := List.sizeOf_lt_of_mem member
  rcases f with ⟨key, shape, required⟩
  simp at inside ⊢
  omega

/-- Induction over shapes: a model has a property if the shapes of its fields have it. -/
@[elab_as_elim]
theorem Shape.fieldwise {P : Shape → Prop} (scalar : ∀ kind, P (.scalar kind))
    (model : ∀ m : Model, (∀ f ∈ m.fields, P f.shape) → P (.model m))
    (array : ∀ item, P item → P (.array item)) : ∀ s, P s
  | .scalar kind => scalar kind
  | .model m => model m fun f _ => Shape.fieldwise scalar model array f.shape
  | .array item => array item (Shape.fieldwise scalar model array item)
termination_by s => sizeOf s
decreasing_by
  · have smaller := Field.sizeOf_shape_lt ‹f ∈ m.fields›
    simp
    omega
  · simp

end Schemata
