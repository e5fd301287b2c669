import Schemata.Proofs.Registry.Agreement

/-! How often a registration writes. A journal is kept beside a directory, of the writes that have been
answered; it changes no answer. A registration that fails has not written, and one that does not fail has
written once at most and is known to the registry. -/
namespace Schemata

structure Journaled (σ : Type) where
  behind : σ
  /-- The requests that have been answered with a receipt, oldest first. -/
  writes : List (PutRequest × Receipt)

namespace Journaled

variable {σ : Type}

/-- A call that is not entered. -/
def read (act : σ → α × σ) (s : Journaled σ) : α × Journaled σ :=
  ((act s.behind).1, { s with behind := (act s.behind).2 })

def write (request : PutRequest) (act : σ → Except DirectoryError Receipt × σ) (s : Journaled σ) :
    Except DirectoryError Receipt × Journaled σ :=
  match act s.behind with
  | (.error e, behind) => (.error e, { s with behind })
  | (.ok receipt, behind) => (.ok receipt, ⟨behind, s.writes ++ [(request, receipt)]⟩)

theorem of_read {act : σ → α × σ} {s s' : Journaled σ} {a : α} (h : read act s = (a, s')) :
    act s.behind = (a, s'.behind) := by
  obtain ⟨rfl, rfl⟩ := Prod.mk.inj h
  rfl

instance [Directory σ] : Directory (Journaled σ) where
  listSchemas now request := read (Directory.listSchemas now request)
  listVersions registry name token := read (Directory.listVersions registry name token)
  describe registry name version := read (Directory.describe registry name version)
  create now request := write request (Directory.create now request)
  update now request := write request (Directory.update now request)
  schemasLeft request s := Directory.schemasLeft request s.behind
  versionsLeft registry name token s := Directory.versionsLeft registry name token s.behind
  schemasLeft_lt listed more := Directory.schemasLeft_lt (of_read listed) more
  versionsLeft_lt listed more := Directory.versionsLeft_lt (of_read listed) more
  versionsLeft_describe := Directory.versionsLeft_describe

section
variable {s s' : Journaled σ}

theorem read_writes {act : σ → α × σ} {a : α} (h : read act s = (a, s')) : s'.writes = s.writes := by
  obtain ⟨-, rfl⟩ := Prod.mk.inj h
  rfl

theorem write_cases {request : PutRequest} {act : σ → Except DirectoryError Receipt × σ}
    {answer : Except DirectoryError Receipt} (h : write request act s = (answer, s')) :
    act s.behind = (answer, s'.behind) ∧ s'.writes = s.writes ++ (answer.toOption.map (request, ·)).toList := by
  unfold write at h
  split at h
  · rename_i reached
    cases h
    exact ⟨reached, (List.append_nil _).symm⟩
  · rename_i reached
    cases h
    exact ⟨reached, rfl⟩

end

variable [Directory σ]

theorem readsAs_behind (writes : List (PutRequest × Receipt)) :
    ReadsAs False fun (s : Journaled σ) t => s.behind = t ∧ s.writes = writes where
  listSchemas _ _ s _ same := by
    obtain ⟨rfl, rfl⟩ := same
    exact .same ⟨rfl, rfl⟩
  listVersions _ _ _ s _ same := by
    obtain ⟨rfl, rfl⟩ := same
    exact .same ⟨rfl, rfl⟩
  describe _ _ _ s _ same := by
    obtain ⟨rfl, rfl⟩ := same
    exact .same ⟨rfl, rfl⟩

omit [Directory σ] in
/-- What reads as the directory behind is answered by it. -/
theorem of_agrees {s' : Journaled σ} {writes : List (PutRequest × Receipt)} {answer : Except ε α} {b : Except ε α × σ}
    (agrees : Agrees False (fun (s : Journaled σ) t => s.behind = t ∧ s.writes = writes) (answer, s') b) :
    b = (answer, s'.behind) ∧ s'.writes = writes := by
  cases agrees with
  | failed impossible => exact impossible.elim
  | same same =>
    obtain ⟨rfl, entered⟩ := same
    exact ⟨rfl, entered⟩

theorem readHistory_cases {registry name : String} {s s' : Journaled σ} {answer : Except DirectoryError History}
    (read : Registry.readHistory registry name s = (answer, s')) :
    Registry.readHistory registry name s.behind = (answer, s'.behind) ∧ s'.writes = s.writes := by
  have agrees := (readsAs_behind s.writes).readHistory registry name ⟨rfl, rfl⟩
  rw [read] at agrees
  exact of_agrees agrees

theorem drainNames_cases {now : Instant} {request : ListRequest} {names : Names} {s s' : Journaled σ}
    {answer : Except DirectoryError Names} (drained : Registry.drainNames now request names s = (answer, s')) :
    Registry.drainNames now request names s.behind = (answer, s'.behind) ∧ s'.writes = s.writes := by
  have agrees := (readsAs_behind s.writes).drainNames now request names ⟨rfl, rfl⟩
  rw [drained] at agrees
  exact of_agrees agrees

end Journaled

namespace Registry

variable {σ : Type} [Directory σ] {r r' : Registry} {s s' : Journaled σ}

theorem ReadsFor.behind {name : String} {answer : Except DirectoryError Unit}
    (reads : ReadsFor name r s answer r' s') : ReadsFor name r s.behind answer r' s'.behind ∧ s'.writes = s.writes := by
  cases reads with
  | held cached => exact ⟨.held cached, rfl⟩
  | failed absent read =>
    obtain ⟨read', writes⟩ := Journaled.readHistory_cases read
    exact ⟨.failed absent read', writes⟩
  | read absent read =>
    obtain ⟨read', writes⟩ := Journaled.readHistory_cases read
    exact ⟨.read absent read', writes⟩

theorem load_behind {now : Instant} {answer : Except SchemaError Unit} (loaded : r.load now s = (answer, r', s')) :
    r.load now s.behind = (answer, r', s'.behind) ∧ s'.writes = s.writes := by
  cases loads_of_load loaded with
  | failed listed =>
    obtain ⟨listed', same⟩ := Journaled.drainNames_cases listed
    simp [load, listed', same]
  | listed listed =>
    obtain ⟨listed', same⟩ := Journaled.drainNames_cases listed
    simp [load, listed', same]

theorem history_behind {name : String} {answer : Except SchemaError History}
    (asked : r.history name s = (answer, r', s')) :
    r.history name s.behind = (answer, r', s'.behind) ∧ s'.writes = s.writes := by
  cases asks_of_history asked with
  | held found => simp [history, found]
  | unlisted absent unlisted => simp [history, absent, unlisted]
  | failed absent listed read =>
    obtain ⟨read', same⟩ := Journaled.readHistory_cases read
    simp [history, absent, listed, read', same]
  | read absent listed read =>
    obtain ⟨read', same⟩ := Journaled.readHistory_cases read
    simp [history, absent, listed, read', same]

variable {now : Instant} {model : Model}

/-- The course of a registration is that of one without the journal, where at most its only write is entered. -/
theorem Attempt.behind {name : String} {found : Except RegistrationFault Version}
    (attempt : Attempt now name model r s found r' s') : Attempt now name model r s.behind found r' s'.behind ∧
      (s'.writes = s.writes ∨ (∃ v, found = .ok v) ∧
        ∃ receipt, s'.writes = s.writes ++ [(requestOf r.name name model, receipt)]) := by
  have asked {answer : Except DirectoryError Described} {s s' : Journaled σ}
      (described : Directory.describe r.name name none s = (answer, s')) :
      Directory.describe r.name name none s.behind = (answer, s'.behind) ∧ s'.writes = s.writes :=
    ⟨Journaled.of_read described, Journaled.read_writes described⟩
  cases attempt with
  | undescribed described other =>
    obtain ⟨described', same⟩ := asked described
    exact ⟨.undescribed described' other, .inl same⟩
  | @created _ _ _ _ receipt described created =>
    obtain ⟨described', same⟩ := asked described
    obtain ⟨created', entered⟩ := Journaled.write_cases created
    exact ⟨.created described' created', .inr ⟨⟨_, rfl⟩, receipt, by rw [entered, same]; rfl⟩⟩
  | uncreated described created =>
    obtain ⟨described', same⟩ := asked described
    obtain ⟨created', entered⟩ := Journaled.write_cases created
    exact ⟨.uncreated described' created', .inl (by rw [entered, same]; exact List.append_nil _)⟩
  | unread described reads =>
    obtain ⟨described', same⟩ := asked described
    obtain ⟨reads', same'⟩ := reads.behind
    exact ⟨.unread described' reads', .inl (same'.trans same)⟩
  | @updated _ _ _ _ _ receipt described reads updated =>
    obtain ⟨described', same⟩ := asked described
    obtain ⟨reads', same'⟩ := reads.behind
    obtain ⟨updated', entered⟩ := Journaled.write_cases updated
    exact ⟨.updated described' reads' updated', .inr ⟨⟨_, rfl⟩, receipt, by rw [entered, same', same]; rfl⟩⟩
  | refused described reads updated other =>
    obtain ⟨described', same⟩ := asked described
    obtain ⟨reads', same'⟩ := reads.behind
    obtain ⟨updated', entered⟩ := Journaled.write_cases updated
    exact ⟨.refused described' reads' updated' other, .inl (by rw [entered, same', same]; exact List.append_nil _)⟩
  | unconfirmed described reads updated again =>
    obtain ⟨described', same⟩ := asked described
    obtain ⟨reads', same'⟩ := reads.behind
    obtain ⟨updated', entered⟩ := Journaled.write_cases updated
    obtain ⟨again', last⟩ := asked again
    exact ⟨.unconfirmed described' reads' updated' again',
      .inl (by rw [last, entered, same', same]; exact List.append_nil _)⟩
  | unchanged described reads updated again =>
    obtain ⟨described', same⟩ := asked described
    obtain ⟨reads', same'⟩ := reads.behind
    obtain ⟨updated', entered⟩ := Journaled.write_cases updated
    obtain ⟨again', last⟩ := asked again
    exact ⟨.unchanged described' reads' updated' again',
      .inl (by rw [last, entered, same', same]; exact List.append_nil _)⟩

/-- A registration is answered as without the journal. If a write is entered, a model is registered. -/
theorem register_behind {name : QualifiedName} {answer : Except SchemaError Version}
    (registered : r.register now name model s = (answer, r', s')) :
    r.register now name model s.behind = (answer, r', s'.behind) ∧
      (s'.writes = s.writes ∨ (∃ v, answer = .ok v) ∧ ∃ entry, s'.writes = s.writes ++ [entry]) := by
  obtain ⟨found, r₁, s₁, attempt⟩ := exists_attempt now name.text model r s
  obtain ⟨attempt', written⟩ := attempt.behind
  have concluded := attempt.register_eq
  rw [registered] at concluded
  cases found with
  | error fault =>
    cases concluded
    refine ⟨attempt'.register_eq, ?_⟩
    rcases written with same | ⟨⟨_, impossible⟩, -⟩
    · exact .inl same
    · cases impossible
  | ok v =>
    obtain ⟨kept, -, remembered⟩ := remember_eq name.text model.handle v r₁
    rw [conclude, remembered] at concluded
    cases concluded
    constructor
    · rw [attempt'.register_eq, conclude, remembered]
    · rcases written with same | ⟨-, receipt, entered⟩
      · exact .inl same
      · exact .inr ⟨⟨_, rfl⟩, _, entered⟩

/-- A registration writes once at most, and what it has written it does not report as a failure: whichever calls
fail, nothing has been written then, no schema has been listed and no model has got another identity. If it does
not fail, its schema is listed and its model is registered as the version that it answers. -/
theorem register_writes_once (now : Instant) (name : QualifiedName) (model : Model) (r : Registry)
    (s : Journaled σ) : ∃ answer r' s', r.register now name model s = (answer, r', s') ∧
      r.register now name model s.behind = (answer, r', s'.behind) ∧
      (∀ e, answer = .error e → s'.writes = s.writes ∧ r'.schemaNames = r.schemaNames ∧
        ∀ handle, r'.identityOf handle = r.identityOf handle) ∧
      ∀ v, answer = .ok v → (s'.writes = s.writes ∨
          ∃ receipt, s'.writes = s.writes ++ [(requestOf r.name name.text model, receipt)]) ∧
        name.text ∈ r'.schemaNames ∧ r'.models.get? model.handle = some v := by
  obtain ⟨fault | v, r₁, s', attempt⟩ := exists_attempt now name.text model r s
  · obtain ⟨attempt', written⟩ := attempt.behind
    refine ⟨_, _, _, attempt.register_eq, attempt'.register_eq, fun e _ => ⟨?_, ?_, ?_⟩, nofun⟩
    · rcases written with same | ⟨⟨_, impossible⟩, -⟩
      · exact same
      · cases impossible
    · rcases attempt.registry with rfl | ⟨_, _, _, _, _, _, _, rfl⟩ <;> rfl
    · rcases attempt.registry with rfl | ⟨_, _, _, _, _, _, _, rfl⟩ <;> exact fun _ => rfl
  · obtain ⟨attempt', written⟩ := attempt.behind
    obtain ⟨kept, -, remembered⟩ := remember_eq name.text model.handle v r₁
    have registered := attempt.register_eq
    have registered' := attempt'.register_eq
    rw [conclude, remembered] at registered registered'
    refine ⟨.ok kept, _, s', registered, registered', fun _ failed => (by cases failed), ?_⟩
    rintro _ ⟨rfl⟩
    refine ⟨written.imp_right And.right, ?_, Table.get?_insert_same _ _ _⟩
    exact Table.contains_iff_mem_keys.mp ((Names.contains_add _ _ _).mpr (.inl rfl))

end Registry

end Schemata
