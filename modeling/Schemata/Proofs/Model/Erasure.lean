import Schemata.Binding
import Schemata.Proofs.Model.Reach

/-! Models without definitions. Binding looks at names and fields only, so a model and its erasure bind
alike. -/
namespace Schemata

mutual
/-- The model without its definitions, and without those of every model that its fields lead to. -/
def Model.erase : Model → Model
  | ⟨name, description, fields, _⟩ => ⟨name, description, Field.eraseAll fields, []⟩

def Field.eraseAll : List Field → List Field
  | [] => []
  | ⟨name, shape, required⟩ :: rest => ⟨name, shape.erase, required⟩ :: Field.eraseAll rest

def Shape.erase : Shape → Shape
  | .scalar kind => .scalar kind
  | .model target => .model target.erase
  | .array item => .array item.erase
end

def Field.erase (f : Field) : Field := { f with shape := f.shape.erase }

theorem Field.eraseAll_eq_map (fs : List Field) : Field.eraseAll fs = fs.map Field.erase := by
  induction fs with
  | nil => simp [Field.eraseAll]
  | cons f rest ih =>
    rcases f with ⟨name, shape, required⟩
    simp [Field.eraseAll, Field.erase, ih]

mutual
theorem Model.erase_erase : ∀ m : Model, m.erase.erase = m.erase
  | ⟨name, description, fields, definitions⟩ => by simp [Model.erase, Field.eraseAll_eraseAll fields]

theorem Field.eraseAll_eraseAll : ∀ fs : List Field,
    Field.eraseAll (Field.eraseAll fs) = Field.eraseAll fs
  | [] => rfl
  | ⟨name, shape, required⟩ :: rest => by
    simp [Field.eraseAll, Shape.erase_erase shape, Field.eraseAll_eraseAll rest]

theorem Shape.erase_erase : ∀ s : Shape, s.erase.erase = s.erase
  | .scalar kind => rfl
  | .model target => by simp [Shape.erase, Model.erase_erase target]
  | .array item => by simp [Shape.erase, Shape.erase_erase item]
end

mutual
theorem Model.bindAt_erase : ∀ (m : Model) (path : Binding.Path) (v : Json),
    m.erase.bindAt path v = m.bindAt path v
  | ⟨name, description, fields, definitions⟩, path, v => by
    cases v <;> simp [Model.erase, Model.bindAt, Field.bindAll_eraseAll fields]

theorem Field.bindAll_eraseAll : ∀ (fs : List Field) (path : Binding.Path)
    (members bound : List (String × Json)),
    Field.bindAll path members bound (Field.eraseAll fs) = Field.bindAll path members bound fs
  | [], path, members, bound => by simp [Field.eraseAll]
  | ⟨name, shape, required⟩ :: rest, path, members, bound => by
    simp only [Field.eraseAll, Field.bindAll, Shape.bindAt_erase shape, Field.bindAll_eraseAll rest]

theorem Shape.bindAt_erase : ∀ (s : Shape) (path : Binding.Path) (v : Json),
    s.erase.bindAt path v = s.bindAt path v
  | .scalar kind, path, v => by simp [Shape.erase]
  | .model target, path, v => by simp [Shape.erase, Shape.bindAt, Model.bindAt_erase target]
  | .array item, path, v => by
    have same : (fun path v => item.erase.bindAt path v) = fun path v => item.bindAt path v := by
      funext path v
      exact Shape.bindAt_erase item path v
    cases v <;> simp [Shape.erase, Shape.bindAt, same]
end

/-- Models that agree up to definitions bind every payload alike. -/
theorem Model.bind_eq_of_erase_eq {a b : Model} (same : a.erase = b.erase) (v : Json) :
    a.bind v = b.bind v := by
  rw [Model.bind, Model.bind, ← Model.bindAt_erase a, ← Model.bindAt_erase b, same]

end Schemata
