import Schemata.Proofs.Directory.Store
import Schemata.Proofs.Registry.Agreement
import Schemata.Proofs.Registry.Enrolment

/-! The histories that a registry keeps, whichever calls fail. Each was read whole at some time; since then only
versions that were registered here have been added to it. -/
namespace Schemata

open ReportingDirectory

theorem Faulty.catalog_behind (s : Faulty Store) : (LawfulDirectory.catalog s.behind).shelf = (report s).shelf :=
  s.behind.shelf_catalog.trans s.behind.shelf_report.symm

namespace Registry

variable {r : Registry} {s s' : Faulty Store}

/-- A history that has been read is the whole of what is on the shelf, though other calls may have failed. -/
theorem readHistory_whole {registry name : String} {h : History} (kept : s.behind.Kept)
    (small : ((report s).shelf registry name).size < 18446744073709551616)
    (read : readHistory registry name s = (.ok h, s')) : h.Whole registry name (report s).shelf := by
  have passed := Faulty.readsAs_behind.readHistory registry name (s := s) rfl
  rw [read] at passed
  obtain ⟨t, read', -⟩ := passed.ok
  rw [← s.catalog_behind] at small ⊢
  obtain ⟨-, -, ⟨⟨_, ⟨⟩⟩, -⟩ | ⟨_, ⟨rfl⟩, whole⟩⟩ := readHistory_cases kept rfl small read'
  exact whole

/-- Where the histories come from that are kept after an operation. -/
def Retains (r : Registry) (shelves : Shelves) (found : Option Version) (r' : Registry) : Prop :=
  ∀ name h', r'.histories.get? name = some h' → ∃ h,
    (r.histories.get? name = some h ∨ h.Whole r.name name shelves) ∧
      (h' = h ∨ ∃ v, found = some v ∧ v.name = name ∧ h' = (h.insert v).1)

theorem retains_here (r : Registry) (shelves : Shelves) : r.Retains shelves none r :=
  fun _ h there => ⟨h, .inl there, .inl rfl⟩

theorem retains_insert {shelves : Shelves} {name : String} {h : History} (whole : h.Whole r.name name shelves) :
    r.Retains shelves none { r with histories := r.histories.insert name h } := by
  intro other h' there
  rcases Table.of_get?_insert there with ⟨rfl, rfl⟩ | before
  · exact ⟨h', .inr whole, .inl rfl⟩
  · exact ⟨h', .inl before, .inl rfl⟩

section
variable {now : Instant} {name : String} {model : Model} {found : Except RegistrationFault Version} {r' : Registry}
  (attempt : Attempt now name model r s found r' s') (kept : Kept s)
include attempt kept

/-- A version is added to a history that has been kept, unless its schema is new. -/
theorem Attempt.ready (proper : now.Proper) {v : Version} (done : found = .ok v) :
    r'.histories.contains name = true ∨ (report s).shelf r.name name = Table.empty := by
  have read {answer : Except DirectoryError Unit} {s₁ s₂ : Faulty Store} (reads : ReadsFor name r s₁ answer r' s₂)
      (fine : answer = .ok ()) : r'.histories.contains name = true := by
    cases reads with
    | held cached => exact cached
    | failed _ _ => cases fine
    | read _ _ => exact (Table.contains_insert _ _ _ _).mpr (.inl rfl)
  cases attempt with
  | created described created =>
    obtain ⟨kept₁, view, -⟩ := describe_reports kept described
    obtain ⟨-, change, -⟩ := create_reports proper kept₁ created
    rw [view] at change
    generalize (report s').shelf = after at change
    cases change with
    | added bare _ _ => exact .inr bare
  | updated _ reads _ => exact .inl (read reads rfl)
  | unchanged _ reads _ _ => exact .inl (read reads rfl)
  | _ => cases done

variable (small : ((report s).shelf r.name name).size < 18446744073709551616)
include small

theorem Attempt.retains : r.Retains (report s).shelf none r' := by
  rcases attempt.registry with rfl | ⟨answer, h, s₁, s₂, -, described, read, rfl⟩
  · exact retains_here _ _
  · obtain ⟨kept₁, view, -⟩ := describe_reports kept described
    refine retains_insert ?_
    rw [← view] at small ⊢
    exact readHistory_whole kept₁.1.1 small read

theorem Attempt.coherent (coherent : r.Coherent (report s).shelf) : r'.Coherent (report s).shelf := by
  rcases attempt.registry with rfl | ⟨answer, h, s₁, s₂, -, described, read, rfl⟩
  · exact coherent
  · obtain ⟨kept₁, view, -⟩ := describe_reports kept described
    rw [← view] at small coherent ⊢
    have whole := readHistory_whole kept₁.1.1 small read
    exact coherent.keep whole

/-- The history that a version is added to was kept before, or is whole. -/
theorem Attempt.base (proper : now.Proper) {v : Version} (done : found = .ok v) :
    r.histories.get? name = some (r'.known name) ∨ (r'.known name).Whole r.name name (report s).shelf := by
  have sameName : r'.name = r.name := by
    rcases attempt.registry with rfl | ⟨_, _, _, _, _, _, _, rfl⟩ <;> rfl
  unfold known
  cases there : r'.histories.get? name with
  | some h =>
    obtain ⟨h₀, origin, rfl | ⟨_, none, -⟩⟩ := attempt.retains kept small name h there
    · exact origin
    · cases none
  | none =>
    rcases attempt.ready kept proper done with cached | bare
    · rw [Table.contains, there] at cached
      cases cached
    · rw [sameName]
      exact .inr (History.whole_empty bare)

end

structure Keeps (r : Registry) (shelves : Shelves) (name : String) (model : Model)
    (result : Except SchemaError Version × Registry × Faulty Store) : Prop where
  retains : r.Retains shelves result.1.toOption result.2.1
  coherent : result.2.1.Coherent (report result.2.2).shelf
  listed : ∀ other, r.listed.contains other = true → result.2.1.listed.contains other = true
  registered : ∀ v, result.1 = .ok v → result.2.1.Registered (report result.2.2).shelf name model v
  extended : ∀ v h, result.1 = .ok v → r.histories.get? name = some h →
    result.2.1.histories.get? name = some (h.insert v).1

theorem sorted_report {s : Faulty Store} (kept : Kept s) (registry name : String) :
    ((report s).shelf registry name).Sorted := by
  rw [← s.catalog_behind]
  exact (LawfulDirectory.orderly kept.1.1).sorted registry name

theorem register_keeps {now : Instant} (proper : now.Proper) (name : QualifiedName) (model : Model) (kept : Kept s)
    (numbered : ∀ registry name, ((report s).shelf registry name).Numbered) (recounts : r.Recounts (report s))
    (coherent : r.Coherent (report s).shelf)
    (small : ((report s).shelf r.name name.text).size < 18446744073709551615) :
    Keeps r (report s).shelf name.text model (r.register now name model s) := by
  obtain ⟨found, r₁, s₁, attempt⟩ := exists_attempt now name.text model r s
  have enrols := attempt.enrols proper kept rfl numbered recounts small
  have retains := attempt.retains kept (Nat.lt_succ_of_lt small)
  have coherent₁ := (attempt.coherent kept (Nat.lt_succ_of_lt small) coherent).extends (enrols.adds.extends numbered)
  have listed : r₁.listed = r.listed := by
    rcases attempt.registry with rfl | ⟨_, _, _, _, _, _, _, rfl⟩ <;> rfl
  rw [attempt.register_eq]
  cases found with
  | error fault => exact ⟨retains, coherent₁, fun other there => listed ▸ there, nofun, nofun⟩
  | ok v =>
    have own : r₁.name = r.name := enrols.sameName
    obtain ⟨d, described, rfl, checksum⟩ := enrols.answered v rfl
    rw [← own] at described
    have named : (d.toVersion r₁.name).name = name.text := ((faithful enrols.kept).onShelf described).1
    have same : (d.toVersion r₁.name).document.checksum = model.document.checksum := checksum
    have ready : r₁.histories.contains name.text = true ∨
        ∀ handle w, r₁.models.get? handle = some w → w.name ≠ name.text := by
      refine (attempt.ready kept proper rfl).imp_right fun bare handle w known same => ?_
      have relies := (attempt.coherent kept (Nat.lt_succ_of_lt small) coherent).models handle w known
      have onShelf := relies.onShelf
      rw [Version.OnShelf, relies.own, same, own, bare] at onShelf
      cases onShelf
    obtain ⟨v, -, shape⟩ := remember_eq name.text model.handle (d.toVersion r₁.name) r₁
    obtain ⟨_, answered, -⟩ := enrols.recounts.remember (faithful enrols.kept) described model.handle
    rw [shape] at answered
    obtain rfl : v = d.toVersion r₁.name := Except.ok.inj (congrArg Prod.fst answered)
    obtain ⟨_, _, remembered, coherent₂, -, registered⟩ := coherent₁.registered rfl named same
      (sorted_report enrols.kept _ _) ((faithful enrols.kept).greatest described) ready
    rw [shape] at remembered
    cases remembered
    rw [conclude, ← own, shape]
    refine ⟨fun other h' there => ?_, coherent₂, fun other there => ?_, ?_, ?_⟩
    · rcases Table.of_get?_insert there with ⟨rfl, rfl⟩ | before
      · rw [named]
        exact ⟨_, attempt.base kept (Nat.lt_succ_of_lt small) proper rfl, .inr ⟨_, rfl, named, rfl⟩⟩
      · obtain ⟨h, origin, rfl | ⟨_, none, -⟩⟩ := retains other h' before
        · exact ⟨h', origin, .inl rfl⟩
        · cases none
    · exact (Names.contains_add _ _ _).mpr (.inr (listed ▸ there))
    · rintro _ ⟨rfl⟩
      exact registered
    · rintro _ h ⟨rfl⟩ cached
      have still : r₁.known name.text = h := by
        rcases attempt.registry with rfl | ⟨_, _, _, _, absent, -⟩
        · rw [known, cached]
          rfl
        · rw [Table.contains, cached] at absent
          cases absent
      dsimp only
      rw [named, still, Table.get?_insert_same]

end Registry

end Schemata
