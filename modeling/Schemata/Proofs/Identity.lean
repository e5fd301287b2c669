import Schemata.Identity

/-! A correlation text is cut back into the identity that it was made of, whatever the default registry is. -/
namespace Schemata.Identity

open Text

/-- What is asked of the parts of an identity. -/
structure Proper (id : Identity) : Prop where
  filled : ¬(id.registry = "" ∨ id.schema = "" ∨ id.version = "")
  registry : '/' ∉ id.registry.toList
  version : ':' ∉ id.version.toList

theorem make_eq_ok_iff {registry schema version : String} {id : Identity} :
    make registry schema version = .ok id ↔ id = ⟨registry, schema, version⟩ ∧ id.Proper := by
  unfold make
  constructor
  · intro made
    split at made
    · cases made
    · split at made
      · cases made
      · split at made
        · cases made
        · cases made
          exact ⟨rfl, ‹_›, ‹_›, ‹_›⟩
  · rintro ⟨rfl, proper⟩
    rw [if_neg proper.filled, if_neg proper.registry, if_neg proper.version]

theorem toList_correlation (id : Identity) : id.correlation.toList =
    id.registry.toList ++ '/' :: (id.schema.toList ++ ':' :: id.version.toList) := by
  simp [correlation, String.toList_append]

theorem parse?_correlation {id : Identity} (proper : id.Proper) (defaultRegistry : String) :
    parse? defaultRegistry id.correlation = some id := by
  have made : make id.registry id.schema id.version = .ok id := make_eq_ok_iff.mpr ⟨rfl, proper⟩
  rw [parse?, toList_correlation, splitFirst?_append _ proper.registry]
  simp only [splitLast?_append _ proper.version, String.ofList_toList, made, Except.toOption]

/-- The correlation names its registry, so that it is spelled without a default one. -/
theorem ofText?_correlation {id : Identity} (proper : id.Proper) : ofText? id.correlation = some id := by
  have slash : '/' ∈ id.correlation.toList := by simp [toList_correlation]
  rw [ofText?, if_pos slash, parse?_correlation proper]

end Schemata.Identity
