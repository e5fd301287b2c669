import Schemata.Proofs.Directory.Report
import Schemata.Proofs.Registry.Registration

/-! Histories that agree with what a directory reports. The latest version is held as the directory describes
it now, with its times and tags; of earlier versions these may have changed since they were read. No call has
to succeed for that. -/
namespace Schemata

open ReportingDirectory

namespace Report

/-- A schema is reported as before, or it has more versions, the latest of which is new. -/
structure Advances (before after : Report) : Prop where
  grown : after.shelf.Extends before.shelf
  schema : ∀ registry name, (after.shelf registry name = before.shelf registry name ∧
      after.describe registry name = before.describe registry name) ∨
    ((before.shelf registry name).size < (after.shelf registry name).size ∧
      ∀ d, after.describe registry name none = .ok d → (before.shelf registry name).get? ⟨d.receipt.version⟩ = none)

theorem Advances.refl (ρ : Report) : ρ.Advances ρ := ⟨.refl _, fun _ _ => .inl ⟨rfl, rfl⟩⟩

theorem Puts.advances {request : PutRequest} {before after : Report} {answer : Except DirectoryError Receipt}
    (puts : before.Puts request answer after) (wrote : before.shelf.Wrote request answer after.shelf)
    (numbered : ∀ registry name, (before.shelf registry name).Numbered) : before.Advances after := by
  refine ⟨wrote.adds.extends numbered, fun registry name => ?_⟩
  cases answer with
  | error e =>
    rw [puts.failed e rfl]
    exact .inl ⟨rfl, rfl⟩
  | ok receipt =>
    obtain ⟨-, last⟩ := wrote.last numbered rfl
    obtain ⟨⟨e, failed⟩, -⟩ | ⟨receipt', answered, -, version, set⟩ := wrote
    · cases failed
    cases answered
    by_cases schema : registry = request.registry ∧ name = request.name
    · obtain ⟨rfl, rfl⟩ := schema
      refine .inr ⟨?_, fun d described => ?_⟩
      · rw [set, Shelves.put, if_pos ⟨rfl, rfl⟩, version, (numbered _ _).size_insert_next]
        exact Nat.lt_succ_self _
      · rw [puts.latest receipt rfl last, Except.ok.injEq] at described
        rw [← described, version]
        exact (numbered _ _).get?_next
    · refine .inl ⟨?_, funext fun v => puts.others registry name v schema⟩
      rw [set, Shelves.put, if_neg schema]

end Report

namespace History

/-- All versions are on the shelf, and the latest of the schema is held as it is described, if it is held. -/
structure Recounts (h : History) (registry name : String) (ρ : Report) : Prop where
  onShelf : ∀ id v, h.versions.get? id = some v → (ρ.shelf registry name).get? id ≠ none
  latest : ∀ d v, ρ.describe registry name none = .ok d → h.versions.get? ⟨d.receipt.version⟩ = some v →
    v = d.toVersion registry

variable {h : History} {registry name : String} {ρ : Report}

theorem recounts_empty (registry name : String) (ρ : Report) : (empty registry name).Recounts registry name ρ where
  onShelf _ _ found := by cases found
  latest _ _ _ found := by cases found

theorem of_get?_insert {v w : Version} {id : VersionId} (found : (h.insert v).1.versions.get? id = some w) :
    id = v.id ∧ w = v ∨ h.versions.get? id = some w := by
  unfold insert at found
  split at found
  · exact .inr found
  · exact Table.of_get?_insert found

variable (recounts : h.Recounts registry name ρ)
include recounts

/-- A version may be added as it is described. -/
theorem Recounts.insert {version : Option String} {d : Described} (faithful : ρ.Faithful)
    (described : ρ.describe registry name version = .ok d) :
    (h.insert (d.toVersion registry)).1.Recounts registry name ρ where
  onShelf id v found := by
    rcases of_get?_insert found with ⟨rfl, -⟩ | old
    · change (ρ.shelf registry name).get? ⟨d.receipt.version⟩ ≠ none
      rw [(faithful.onShelf described).2]
      exact Option.some_ne_none _
    · exact recounts.onShelf id v old
  latest l v latest found := by
    rcases of_get?_insert found with ⟨same, rfl⟩ | old
    · have version : d.receipt.version = l.receipt.version := (congrArg VersionId.text same).symm
      rw [faithful.eq_latest described latest version]
    · exact recounts.latest l v latest old

theorem Recounts.advances {later : Report} (advances : ρ.Advances later) : h.Recounts registry name later where
  onShelf id v found := by
    obtain ⟨content, there⟩ := Option.ne_none_iff_exists'.mp (recounts.onShelf id v found)
    rw [advances.grown _ _ _ _ there]
    exact Option.some_ne_none _
  latest d v described found := by
    rcases advances.schema registry name with ⟨-, same⟩ | ⟨-, new⟩
    · rw [same] at described
      exact recounts.latest d v described found
    · exact absurd (new d described) (recounts.onShelf _ v found)

end History

namespace Registry

variable {σ : Type} [Directory σ] [ReportingDirectory σ] {s s' : σ} {ρ : Report} {registry name : String}

theorem describeAll_recounts {summaries : List VersionSummary} {h : History}
    {answer : Except DirectoryError History} (kept : Kept s) (view : report s = ρ)
    (recounts : h.Recounts registry name ρ) (described : describeAll registry name summaries h s = (answer, s')) :
    Kept s' ∧ report s' = ρ ∧ ∀ h', answer = .ok h' → h'.Recounts registry name ρ := by
  induction summaries generalizing h s with
  | nil =>
    cases described
    exact ⟨kept, view, fun _ same => by cases same; exact recounts⟩
  | cons summary rest ih =>
    unfold describeAll at described
    split at described
    · rename_i asked
      obtain ⟨kept', same, -⟩ := describe_reports kept asked
      cases described
      exact ⟨kept', same.trans view, nofun⟩
    · rename_i d s₁ asked
      obtain ⟨kept', same, ⟨e, failed⟩ | answered⟩ := describe_reports kept asked
      · cases failed
      · have faithful := faithful kept
        rw [view] at answered faithful
        exact ih kept' (same.trans view) (recounts.insert faithful answered.symm) described

theorem drainVersions_recounts {token : Option String} {h : History} {answer : Except DirectoryError History}
    (kept : Kept s) (view : report s = ρ) (recounts : h.Recounts registry name ρ)
    (drained : drainVersions registry name token h s = (answer, s')) :
    Kept s' ∧ report s' = ρ ∧ ∀ h', answer = .ok h' → h'.Recounts registry name ρ := by
  have drains := drains_of_drainVersions drained
  clear drained
  induction drains with
  | failed listed =>
    obtain ⟨kept₁, view₁⟩ := listVersions_keeps kept listed
    exact ⟨kept₁, view₁.trans view, nofun⟩
  | unread listed described =>
    obtain ⟨kept₁, view₁⟩ := listVersions_keeps kept listed
    exact describeAll_recounts kept₁ (view₁.trans view) recounts described
  | last listed described _ =>
    obtain ⟨kept₁, view₁⟩ := listVersions_keeps kept listed
    exact describeAll_recounts kept₁ (view₁.trans view) recounts described
  | more listed described _ _ ih =>
    obtain ⟨kept₁, view₁⟩ := listVersions_keeps kept listed
    obtain ⟨kept₂, view₂, all⟩ := describeAll_recounts kept₁ (view₁.trans view) recounts described
    exact ih kept₂ view₂ (all _ rfl)

theorem drainNames_keeps {now : Instant} {request : ListRequest} {names : Names}
    {answer : Except DirectoryError Names} (kept : Kept s) (view : report s = ρ)
    (drained : drainNames now request names s = (answer, s')) : Kept s' ∧ report s' = ρ := by
  have drains := drains_of_drainNames drained
  clear drained
  induction drains with
  | failed listed =>
    obtain ⟨kept₁, view₁⟩ := listSchemas_keeps kept listed
    exact ⟨kept₁, view₁.trans view⟩
  | last listed _ =>
    obtain ⟨kept₁, view₁⟩ := listSchemas_keeps kept listed
    exact ⟨kept₁, view₁.trans view⟩
  | more listed _ _ ih =>
    obtain ⟨kept₁, view₁⟩ := listSchemas_keeps kept listed
    exact ih kept₁ (view₁.trans view)

/-- All histories that the registry holds agree with the report. -/
def Recounts (r : Registry) (ρ : Report) : Prop :=
  ∀ name h, r.histories.get? name = some h → h.Recounts r.name name ρ

theorem recounts_new (name : String) (start : Option String) (ρ : Report) : (new name start).Recounts ρ := nofun

/-- An operation leaves the directory as it is, and the registry in agreement with it. -/
structure Retells (r : Registry) (ρ : Report) (r' : Registry) (s' : σ) : Prop where
  kept : Kept s'
  view : report s' = ρ
  recounts : r'.Recounts ρ
  sameName : r'.name = r.name

section
variable {r r' : Registry} (kept : Kept s) (view : report s = ρ) (recounts : r.Recounts ρ)
include kept view recounts

theorem retells_here : r.Retells ρ r s := ⟨kept, view, recounts, rfl⟩

theorem retells_read {answer : Except DirectoryError History}
    (read : readHistory r.name name s = (answer, s')) : r.Retells ρ r s' ∧ ∀ h, answer = .ok h →
      r.Retells ρ { r with histories := r.histories.insert name h } s' := by
  obtain ⟨kept', view', all⟩ := drainVersions_recounts kept view (History.recounts_empty r.name name ρ) read
  refine ⟨⟨kept', view', recounts, rfl⟩, fun h answered => ⟨kept', view', fun other found there => ?_, rfl⟩⟩
  rcases Table.of_get?_insert there with ⟨rfl, rfl⟩ | before
  · exact all found answered
  · exact recounts other found before

theorem retells_load {now : Instant} {answer : Except SchemaError Unit}
    (loaded : r.load now s = (answer, r', s')) : r.Retells ρ r' s' := by
  cases loads_of_load loaded with
  | failed drained =>
    obtain ⟨kept', view'⟩ := drainNames_keeps kept view drained
    exact ⟨kept', view', recounts, rfl⟩
  | listed drained =>
    obtain ⟨kept', view'⟩ := drainNames_keeps kept view drained
    exact ⟨kept', view', nofun, rfl⟩

theorem retells_history {answer : Except SchemaError History}
    (asked : r.history name s = (answer, r', s')) : r.Retells ρ r' s' := by
  cases asks_of_history asked with
  | held _ => exact retells_here kept view recounts
  | unlisted _ _ => exact retells_here kept view recounts
  | failed _ _ read => exact (retells_read kept view recounts read).1
  | read _ _ read => exact (retells_read kept view recounts read).2 _ rfl

theorem ReadsFor.retells {answer : Except DirectoryError Unit} (reads : ReadsFor name r s answer r' s') :
    r.Retells ρ r' s' := by
  cases reads with
  | held _ => exact retells_here kept view recounts
  | failed _ read => exact (retells_read kept view recounts read).1
  | read _ read => exact (retells_read kept view recounts read).2 _ rfl

end

theorem Recounts.known {r : Registry} (recounts : r.Recounts ρ) (name : String) :
    (r.known name).Recounts r.name name ρ := by
  unfold Registry.known
  cases found : r.histories.get? name with
  | none => exact History.recounts_empty _ _ _
  | some h => exact recounts _ _ found

/-- Remembering the latest version answers it as it is described. -/
theorem Recounts.remember {r : Registry} (recounts : r.Recounts ρ) (faithful : ρ.Faithful) {d : Described}
    (described : ρ.describe r.name name none = .ok d) (handle : Handle) :
    ∃ r', r.remember name handle (d.toVersion r.name) = (.ok (d.toVersion r.name), r') ∧ r'.Recounts ρ ∧
      r'.name = r.name := by
  obtain ⟨rfl, -⟩ := faithful.onShelf described
  have recounted := (recounts.known d.receipt.name).insert faithful described
  obtain ⟨kept, held, remembered⟩ := remember_eq d.receipt.name handle (d.toVersion r.name) r
  obtain rfl := recounted.latest d kept described held
  refine ⟨_, remembered, fun other h there => ?_, rfl⟩
  rcases Table.of_get?_insert there with ⟨rfl, rfl⟩ | before
  · exact recounted
  · exact recounts other h before

end Registry

end Schemata
