import Schemata.Proofs.Directory.Lawful
import Schemata.Proofs.Registry.Agreement

/-! What a registration leaves alone. It reads and writes under the text of one name only, so that the versions of
every other schema stay as they are, whatever has been stored before and whichever call is refused. -/
namespace Schemata

namespace Shelves

variable {request : PutRequest} {before after : Shelves} {answer : Except DirectoryError Receipt}

theorem put_other (id : VersionId) {registry name : String} (other : name ≠ request.name) :
    before.put request id registry name = before registry name := if_neg fun same => other same.2

theorem Created.other (created : before.Created request answer after) {registry name : String}
    (other : name ≠ request.name) : after registry name = before registry name := by
  cases created with
  | refused => rfl
  | added _ _ _ => exact put_other _ other

theorem Updated.other (updated : before.Updated request answer after) {registry name : String}
    (other : name ≠ request.name) : after registry name = before registry name := by
  cases updated with
  | refused _ => rfl
  | unchanged _ _ => rfl
  | added _ _ _ _ => exact put_other _ other

end Shelves

namespace Registry

open LawfulDirectory

variable {σ : Type} [Directory σ] [LawfulDirectory σ] {r r' : Registry} {s s' : σ}

/-- Nothing has been stored meanwhile but versions of schemas with this name. -/
structure TouchesOnly (name : String) (s s' : σ) : Prop where
  kept : Kept s'
  others : ∀ registry other, other ≠ name → (catalog s').shelf registry other = (catalog s).shelf registry other

theorem TouchesOnly.trans {name : String} {s'' : σ} (first : TouchesOnly name s s') (later : TouchesOnly name s' s'') :
    TouchesOnly name s s'' :=
  ⟨later.kept, fun registry other apart =>
    (later.others registry other apart).trans (first.others registry other apart)⟩

theorem touches_of_catalog (name : String) (kept : Kept s') (view : catalog s' = catalog s) : TouchesOnly name s s' :=
  ⟨kept, fun _ _ _ => by rw [view]⟩

/-- Calls that read leave the catalog as it is. -/
theorem readsAs_catalog (c : Catalog) : ReadsAs False fun s t : σ => s = t ∧ Kept s ∧ catalog s = c where
  listSchemas now request s _ same := by
    obtain ⟨rfl, kept, view⟩ := same
    obtain ⟨kept', view', -⟩ := listSchemas_law kept (Eq.refl (Directory.listSchemas now request s))
    exact .same ⟨rfl, kept', view'.trans view⟩
  listVersions registry name token s _ same := by
    obtain ⟨rfl, kept, view⟩ := same
    obtain ⟨kept', view', -⟩ := listVersions_law kept (Eq.refl (Directory.listVersions registry name token s))
    exact .same ⟨rfl, kept', view'.trans view⟩
  describe registry name version s _ same := by
    obtain ⟨rfl, kept, view⟩ := same
    obtain ⟨kept', view', -⟩ := describe_law kept (Eq.refl (Directory.describe registry name version s))
    exact .same ⟨rfl, kept', view'.trans view⟩

theorem readHistory_catalog {registry name : String} {answer : Except DirectoryError History} (kept : Kept s)
    (read : readHistory registry name s = (answer, s')) : Kept s' ∧ catalog s' = catalog s := by
  have agrees := (readsAs_catalog (catalog s)).readHistory registry name ⟨rfl, kept, rfl⟩
  rw [read] at agrees
  cases agrees with
  | failed impossible => exact impossible.elim
  | same same => exact same.2

section
variable {name : String} (kept : Kept s)
include kept

theorem describe_touches {registry name' : String} {version : Option String} {answer : Except DirectoryError Described}
    (described : Directory.describe registry name' version s = (answer, s')) : TouchesOnly name s s' := by
  obtain ⟨kept', view, -⟩ := describe_law kept described
  exact touches_of_catalog name kept' view

theorem ReadsFor.touches {answer : Except DirectoryError Unit} (reads : ReadsFor name r s answer r' s') :
    TouchesOnly name s s' := by
  cases reads with
  | held _ => exact touches_of_catalog name kept rfl
  | failed _ read =>
    obtain ⟨kept', view⟩ := readHistory_catalog kept read
    exact touches_of_catalog name kept' view
  | read _ read =>
    obtain ⟨kept', view⟩ := readHistory_catalog kept read
    exact touches_of_catalog name kept' view

variable {now : Instant} (proper : now.Proper) {model : Model}
include proper

theorem create_touches {registry : String} {answer : Except DirectoryError Receipt}
    (created : Directory.create now (requestOf registry name model) s = (answer, s')) : TouchesOnly name s s' := by
  obtain ⟨kept', change⟩ := create_law proper kept created
  exact ⟨kept', fun _ _ apart => change.other apart⟩

theorem update_touches {registry : String} {answer : Except DirectoryError Receipt}
    (updated : Directory.update now (requestOf registry name model) s = (answer, s')) : TouchesOnly name s s' := by
  obtain ⟨kept', change⟩ := update_law proper kept updated
  exact ⟨kept', fun _ _ apart => change.other apart⟩

/-- One call of a registration after the other. -/
theorem Attempt.touches {found : Except RegistrationFault Version} (attempt : Attempt now name model r s found r' s') :
    TouchesOnly name s s' := by
  have read {d : Described} {answer : Except DirectoryError Unit} {r₁ : Registry} {s₁ s₂ : σ}
      (described : Directory.describe r.name name none s = (.ok d, s₁)) (reads : ReadsFor name r s₁ answer r₁ s₂) :
      TouchesOnly name s s₂ := by
    have first : TouchesOnly name s s₁ := describe_touches kept described
    exact first.trans (reads.touches first.kept)
  have updated {d : Described} {r₁ : Registry} {s₁ s₂ s₃ : σ} {answer : Except DirectoryError Receipt}
      (described : Directory.describe r.name name none s = (.ok d, s₁)) (reads : ReadsFor name r s₁ (.ok ()) r₁ s₂)
      (updated : Directory.update now (requestOf r.name name model) s₂ = (answer, s₃)) : TouchesOnly name s s₃ := by
    have before := read described reads
    exact before.trans (update_touches before.kept proper updated)
  cases attempt with
  | undescribed described _ => exact describe_touches kept described
  | created described created =>
    have first : TouchesOnly name s _ := describe_touches kept described
    exact first.trans (create_touches first.kept proper created)
  | uncreated described created =>
    have first : TouchesOnly name s _ := describe_touches kept described
    exact first.trans (create_touches first.kept proper created)
  | unread described reads => exact read described reads
  | updated described reads wrote => exact updated described reads wrote
  | refused described reads wrote _ => exact updated described reads wrote
  | unconfirmed described reads wrote again =>
    have before := updated described reads wrote
    exact before.trans (describe_touches before.kept again)
  | unchanged described reads wrote again =>
    have before := updated described reads wrote
    exact before.trans (describe_touches before.kept again)

end

/-- A registration stores nothing but versions of its own schema, whether it fails or not. -/
theorem register_touches {now : Instant} (proper : now.Proper) (kept : Kept s) (r : Registry) (name : QualifiedName)
    (model : Model) : TouchesOnly name.text s (r.register now name model s).2.2 := by
  obtain ⟨found, r', s', attempt⟩ := exists_attempt now name.text model r s
  have ends : (conclude name.text model found r' s').2.2 = s' := by cases found <;> rfl
  rw [attempt.register_eq, ends]
  exact attempt.touches kept proper

end Registry

end Schemata
