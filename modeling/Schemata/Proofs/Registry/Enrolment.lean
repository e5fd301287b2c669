import Schemata.Proofs.Registry.Recounting

/-! Registering a model, with failing calls and without. A registration that is answered has the latest version
of its schema for an answer, as the directory describes it; made again while that is still the latest, it
changes nothing and has the same answer. -/
namespace Schemata.Registry

open ReportingDirectory

variable {σ : Type} [Directory σ] [ReportingDirectory σ] {s : σ} {ρ : Report} {r : Registry}

/-- What a registration may do, however its calls fail: it adds the document of its model at most, and the
histories still agree with the report. -/
structure Enrols (r : Registry) (ρ : Report) (name : String) (model : Model)
    (result : Except SchemaError Version × Registry × σ) : Prop where
  kept : Kept result.2.2
  adds : ρ.shelf.Adds [model.document.text] (report result.2.2).shelf
  advances : ρ.Advances (report result.2.2)
  recounts : result.2.1.Recounts (report result.2.2)
  sameName : result.2.1.name = r.name
  answered : ∀ v, result.1 = .ok v → ∃ d, (report result.2.2).describe r.name name none = .ok d ∧
    v = d.toVersion r.name ∧ Checksum.ofText d.content = model.document.checksum

section
variable {name : String} {model : Model} {r' : Registry} {s' : σ}

theorem Retells.enrols (retells : r.Retells ρ r' s') (e : SchemaError) :
    Enrols r ρ name model (.error e, r', s') :=
  ⟨retells.kept, retells.view ▸ .nothing, retells.view ▸ .refl _, retells.view ▸ retells.recounts,
    retells.sameName, nofun⟩

section
variable {answer : Except DirectoryError Receipt} (retells : r.Retells ρ r' s) (kept : Kept s')
  (wrote : ρ.shelf.Wrote (requestOf r.name name model) answer (report s').shelf)
  (puts : ρ.Puts (requestOf r.name name model) answer (report s'))
  (numbered : ∀ registry name, (ρ.shelf registry name).Numbered)
include retells kept wrote puts numbered

theorem enrols_written : Enrols r ρ name model
    ((answer.map fun receipt => receipt.toVersion r.name model.document).mapError
      fun e => .registration name (.call e), r', s') := by
  have advances := puts.advances wrote numbered
  refine ⟨kept, wrote.adds, advances, fun other h there => (retells.recounts other h there).advances advances,
    retells.sameName, ?_⟩
  cases answer with
  | error e => exact nofun
  | ok receipt =>
    rintro _ ⟨rfl⟩
    exact ⟨_, puts.latest receipt rfl (wrote.last numbered rfl).2, rfl, rfl⟩

end

/-- The content of the latest version is there already, and that version is described. -/
theorem enrols_confirmed (retells : r.Retells ρ r' s) {conflicting : String} (kept : Kept s')
    (change : ρ.shelf.Updated (requestOf r.name name model) (.error (.conflict conflicting)) (report s').shelf)
    (same : report s' = ρ) {d : Described} {s'' : σ}
    (described : Directory.describe r.name name none s' = (.ok d, s'')) :
    Enrols r ρ name model (.ok (d.toVersion r.name), r', s'') := by
  obtain ⟨kept'', view, ⟨e, failed⟩ | answered⟩ := describe_reports kept described
  · cases failed
  have latest : ρ.describe r.name name none = .ok d := by rw [← same, answered]
  have view' : report s'' = ρ := view.trans same
  refine ⟨kept'', view' ▸ .nothing, view' ▸ .refl _, view' ▸ retells.recounts, retells.sameName, ?_⟩
  rintro _ ⟨rfl⟩
  refine ⟨d, view' ▸ latest, rfl, ?_⟩
  have greatest := (view' ▸ faithful kept'' : ρ.Faithful).greatest latest
  rw [same] at change
  cases change with
  | refused ordinary => exact absurd rfl (ordinary _)
  | unchanged last checksum =>
    have texts := (last.symm.trans greatest)
    rw [Option.some.injEq, Prod.mk.injEq, Option.some.injEq] at texts
    exact texts.2 ▸ checksum

end

section
variable {now : Instant} (proper : now.Proper) (kept : Kept s) (view : report s = ρ)
  (numbered : ∀ registry name, (ρ.shelf registry name).Numbered) (recounts : r.Recounts ρ)
include proper kept view numbered recounts

theorem Attempt.enrols {name : String} {model : Model} {found : Except RegistrationFault Version} {r' : Registry}
    {s' : σ} (attempt : Attempt now name model r s found r' s')
    (small : (ρ.shelf r.name name).size < 18446744073709551615) :
    Enrols r ρ name model (found.mapError (.registration name), r', s') := by
  have asked {answer : Except DirectoryError Described} {s₁ : σ}
      (described : Directory.describe r.name name none s = (answer, s₁)) : r.Retells ρ r s₁ := by
    obtain ⟨kept₁, view₁, -⟩ := describe_reports kept described
    exact ⟨kept₁, view₁.trans view, recounts, rfl⟩
  have read {d : Described} {answer : Except DirectoryError Unit} {r₁ : Registry} {s₁ s₂ : σ}
      (described : Directory.describe r.name name none s = (.ok d, s₁)) (reads : ReadsFor name r s₁ answer r₁ s₂) :
      r.Retells ρ r₁ s₂ := by
    have retells := asked described
    exact reads.retells retells.kept retells.view recounts
  have wrote {answer : Except DirectoryError Receipt} {r₁ : Registry} {s₁ s₂ : σ} (retells : r.Retells ρ r₁ s₁)
      (updated : Directory.update now (requestOf r.name name model) s₁ = (answer, s₂)) :
      Kept s₂ ∧ ρ.shelf.Updated (requestOf r.name name model) answer (report s₂).shelf ∧
        ρ.Puts (requestOf r.name name model) answer (report s₂) := by
    have reports := update_reports proper retells.kept updated
    rwa [retells.view] at reports
  cases attempt with
  | undescribed described _ => exact (asked described).enrols _
  | created described created =>
    have retells := asked described
    obtain ⟨kept', change, puts⟩ := create_reports proper retells.kept created
    rw [retells.view] at change puts
    exact enrols_written retells kept' change.wrote puts numbered
  | uncreated described created =>
    have retells := asked described
    obtain ⟨kept', change, puts⟩ := create_reports proper retells.kept created
    rw [retells.view] at change puts
    exact enrols_written retells kept' change.wrote puts numbered
  | unread described reads => exact (read described reads).enrols _
  | updated described reads updated =>
    have retells := read described reads
    obtain ⟨kept', change, puts⟩ := wrote retells updated
    exact enrols_written retells kept' (change.wrote (numbered _ _) small) puts numbered
  | refused described reads updated _ =>
    have retells := read described reads
    obtain ⟨kept', change, puts⟩ := wrote retells updated
    exact enrols_written retells kept' (change.wrote (numbered _ _) small) puts numbered
  | unconfirmed described reads updated again =>
    have retells := read described reads
    obtain ⟨kept', -, puts⟩ := wrote retells updated
    obtain ⟨kept'', view'', -⟩ := describe_reports kept' again
    exact Retells.enrols ⟨kept'', view''.trans (puts.failed _ rfl), retells.recounts, retells.sameName⟩ _
  | unchanged described reads updated again =>
    have retells := read described reads
    obtain ⟨kept', change, puts⟩ := wrote retells updated
    exact enrols_confirmed retells kept' change (puts.failed _ rfl) again

end

theorem register_enrols {now : Instant} (proper : now.Proper) (name : QualifiedName) (model : Model) (kept : Kept s)
    (view : report s = ρ) (numbered : ∀ registry name, (ρ.shelf registry name).Numbered) (recounts : r.Recounts ρ)
    (small : (ρ.shelf r.name name.text).size < 18446744073709551615) :
    Enrols r ρ name.text model (r.register now name model s) := by
  obtain ⟨found, r', s', attempt⟩ := exists_attempt now name.text model r s
  have enrols := attempt.enrols proper kept view numbered recounts small
  rw [attempt.register_eq]
  cases found with
  | error fault => exact enrols
  | ok v =>
    obtain ⟨d, described, rfl, checksum⟩ := enrols.answered v rfl
    have described' : (report s').describe r'.name name.text none = .ok d := enrols.sameName ▸ described
    obtain ⟨r'', remembered, recounts', sameName⟩ :=
      enrols.recounts.remember (faithful enrols.kept) described' model.handle
    rw [enrols.sameName] at remembered
    rw [conclude, remembered]
    refine ⟨enrols.kept, enrols.adds, enrols.advances, recounts', sameName.trans enrols.sameName, ?_⟩
    rintro _ ⟨rfl⟩
    exact ⟨d, described, rfl, checksum⟩

theorem readsFor_ok {s : Store} {name : String} (kept : s.Kept)
    (small : (s.shelf r.name name).size < 18446744073709551616) (filled : s.shelf r.name name ≠ Table.empty) :
    ∃ r' s', ReadsFor name r s (.ok ()) r' s' := by
  obtain ⟨answer, r', s', reads⟩ := exists_readsFor name r s
  cases reads with
  | held cached => exact ⟨_, _, .held cached⟩
  | read absent read => exact ⟨_, _, .read absent read⟩
  | failed absent failed =>
    have view := s.shelf_catalog
    obtain ⟨-, -, ⟨-, bare⟩ | ⟨_, ⟨⟩, -⟩⟩ := readHistory_cases kept rfl (by rw [view]; exact small) failed
    rw [view] at bare
    exact absurd bare filled

/-- A model whose document has the checksum of the latest version is answered that version, and nothing is
written. -/
theorem register_again {s : Store} {now : Instant} (proper : now.Proper) (name : QualifiedName) (model : Model)
    {d : Described} (kept : Kept s) (recounts : r.Recounts (report s))
    (small : ((report s).shelf r.name name.text).size < 18446744073709551616)
    (described : (report s).describe r.name name.text none = .ok d)
    (same : Checksum.ofText d.content = model.document.checksum) :
    ∃ r' s', r.register now name model s = (.ok (d.toVersion r.name), r', s') ∧ report s' = report s := by
  rcases first : Directory.describe r.name name.text none s with ⟨answer, s₁⟩
  obtain ⟨kept₁, view₁, -⟩ := describe_reports kept first
  obtain rfl : answer = .ok d := by rw [← described, Store.describe_report, first]
  have filled : s₁.shelf r.name name.text ≠ Table.empty := by
    rw [← s₁.shelf_report, view₁]
    intro bare
    have last := (faithful kept).greatest described
    rw [bare] at last
    cases last
  obtain ⟨r₂, s₂, reads⟩ := @readsFor_ok r s₁ name.text kept₁.1
    (by rw [← s₁.shelf_report, view₁]; exact small) filled
  have retells := reads.retells kept₁ view₁ recounts
  rcases updated : Directory.update now (requestOf r.name name.text model) s₂ with ⟨answer, s₃⟩
  obtain ⟨kept₃, -, puts⟩ := update_reports proper retells.kept updated
  obtain rfl : answer = .error (.conflict name.text) := by
    have conflict := @Store.update_conflict now (requestOf r.name name.text model) s₂ d retells.kept.2
      (by rw [← Store.describe_report, retells.view]; exact described) same
    rw [updated] at conflict
    exact conflict
  have view₃ : report s₃ = report s := (puts.failed _ rfl).trans retells.view
  rcases last : Directory.describe r.name name.text none s₃ with ⟨answer, s₄⟩
  obtain ⟨kept₄, view₄, -⟩ := describe_reports kept₃ last
  rw [view₃] at view₄
  obtain rfl : answer = .ok d := by rw [← described, ← view₃, Store.describe_report, last]
  have described₂ : (report s).describe r₂.name name.text none = .ok d := by
    rw [retells.sameName]
    exact described
  obtain ⟨r', remembered, -⟩ := retells.recounts.remember (faithful kept) described₂ model.handle
  rw [retells.sameName] at remembered
  refine ⟨r', s₄, ?_, view₄⟩
  rw [(Attempt.unchanged first reads updated last).register_eq, conclude, remembered]

end Schemata.Registry
