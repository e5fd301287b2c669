import Schemata.Model.Basic
import Mathlib.Logic.Relation

/-! Which models a model leads to, through its definitions and through what its fields hold. -/
namespace Schemata

/-- The models that a model leads to in one step, with the keys under which it would have them stored. -/
inductive Model.Offers (m : Model) : String → Model → Prop where
  | definition {d : Definition} : d ∈ m.definitions → Offers m d.key d.model
  | field {f : Field} {t : Model} : f ∈ m.fields → f.shape.target? = some t → Offers m t.name t

def Model.Leads (m t : Model) : Prop := ∃ key, m.Offers key t

/-- Reached in any number of steps, none included. -/
abbrev Model.Reaches : Model → Model → Prop := Relation.ReflTransGen Model.Leads

abbrev Model.Below (root t : Model) : Prop := Relation.TransGen Model.Leads root t

theorem Model.Leads.definition {m : Model} {d : Definition} (member : d ∈ m.definitions) :
    m.Leads d.model := ⟨d.key, .definition member⟩

theorem Model.Leads.field {m t : Model} {f : Field} (member : f ∈ m.fields)
    (target : f.shape.target? = some t) : m.Leads t := ⟨t.name, .field member target⟩

def Model.Distinct (m : Model) : Prop := (m.fields.map (·.name)).Nodup

/-- No model that is reached names two fields alike. -/
def Model.AllDistinct (m : Model) : Prop := ∀ t, m.Reaches t → t.Distinct

theorem Model.AllDistinct.here {m : Model} (all : m.AllDistinct) : m.Distinct := all m .refl

end Schemata
