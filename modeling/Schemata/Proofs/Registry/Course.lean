import Schemata.Proofs.History
import Schemata.Registry

/-! The courses that the operations of a registry take: the calls that they make, one after the other, and what
each answer leads to. Nothing is assumed about the directory. -/
namespace Schemata.Registry

variable {σ : Type} [Directory σ] {r : Registry} {s : σ}

def known (r : Registry) (name : String) : History := (r.histories.get? name).getD (.empty r.name name)

/-- Remembering does not fail: a version is in the history that it has been added to. -/
theorem remember_eq (name : String) (handle : Handle) (v : Version) (r : Registry) :
    ∃ kept, ((r.known v.name).insert v).1.versions.get? v.id = some kept ∧
      r.remember name handle v = (.ok kept, { r with
        histories := r.histories.insert v.name ((r.known v.name).insert v).1
        listed := r.listed.add name
        models := r.models.insert handle kept }) := by
  obtain ⟨kept, there⟩ := (History.has_insert (r.known v.name) v v.id).mpr (.inr rfl)
  refine ⟨kept, there, ?_⟩
  have found : ((r.known v.name).insert v).1.get? (some v.id.text) = some kept := there
  rw [known] at found
  rw [remember, found]
  rfl

inductive Loads (now : Instant) (r : Registry) (s : σ) : Except SchemaError Unit → Registry → σ → Prop where
  | failed {e : DirectoryError} {s' : σ} : drainNames now ⟨r.name, r.start, none⟩ Table.empty s = (.error e, s') →
    Loads now r s (.error (.ofDirectory e)) r s'
  | listed {names : Names} {s' : σ} : drainNames now ⟨r.name, r.start, none⟩ Table.empty s = (.ok names, s') →
    Loads now r s (.ok ()) { r with
      listed := names.addAll (r.models.values.map (·.name))
      histories := Table.empty } s'

theorem loads_of_load {now : Instant} {answer : Except SchemaError Unit} {r' : Registry} {s' : σ}
    (loaded : r.load now s = (answer, r', s')) : Loads now r s answer r' s' := by
  unfold load at loaded
  split at loaded
  · rename_i drained
    cases loaded
    exact .failed drained
  · rename_i drained
    cases loaded
    exact .listed drained

inductive Asks (name : String) (r : Registry) (s : σ) : Except SchemaError History → Registry → σ → Prop where
  | held {h : History} : r.histories.get? name = some h → Asks name r s (.ok h) r s
  | unlisted : r.histories.get? name = none → r.listed.contains name = false →
    Asks name r s (.error (.absent name none)) r s
  | failed {e : DirectoryError} {s' : σ} : r.histories.get? name = none → r.listed.contains name = true →
    readHistory r.name name s = (.error e, s') → Asks name r s (.error (.ofDirectory e)) r s'
  | read {h : History} {s' : σ} : r.histories.get? name = none → r.listed.contains name = true →
    readHistory r.name name s = (.ok h, s') →
    Asks name r s (.ok h) { r with histories := r.histories.insert name h } s'

theorem asks_of_history {name : String} {answer : Except SchemaError History} {r' : Registry} {s' : σ}
    (asked : r.history name s = (answer, r', s')) : Asks name r s answer r' s' := by
  unfold history at asked
  split at asked
  · rename_i held
    cases asked
    exact .held held
  · rename_i absent
    split at asked
    · rename_i listed
      split at asked
      · rename_i read
        cases asked
        exact .failed absent listed read
      · rename_i read
        cases asked
        exact .read absent listed read
    · rename_i unlisted
      cases asked
      exact .unlisted absent (Bool.eq_false_iff.mpr unlisted)

theorem document_eq (name : String) (version : Option String) (r : Registry) (s : σ) :
    r.document name version s = ((r.history name s).1.bind fun h =>
      (h.get? version).elim (.error (.absent name version)) fun v => .ok v.document, (r.history name s).2) := by
  unfold document
  rcases r.history name s with ⟨_ | h, r', s'⟩
  · rfl
  · dsimp only [Except.bind]
    cases h.get? version <;> rfl

theorem model_eq (name : String) (version : Option String) (r : Registry) (s : σ) :
    r.model name version s = ((r.document name version s).1.bind modelOf, (r.document name version s).2) := by
  unfold model
  rcases r.document name version s with ⟨_ | document, r', s'⟩ <;> rfl

/-- What reading the history that an update is to extend comes to. -/
inductive ReadsFor (name : String) (r : Registry) (s : σ) : Except DirectoryError Unit → Registry → σ → Prop where
  | held : r.histories.contains name = true → ReadsFor name r s (.ok ()) r s
  | failed {e : DirectoryError} {s' : σ} : r.histories.contains name = false →
    readHistory r.name name s = (.error e, s') → ReadsFor name r s (.error e) r s'
  | read {h : History} {s' : σ} : r.histories.contains name = false →
    readHistory r.name name s = (.ok h, s') →
    ReadsFor name r s (.ok ()) { r with histories := r.histories.insert name h } s'

theorem exists_readsFor (name : String) (r : Registry) (s : σ) :
    ∃ answer r' s', ReadsFor name r s answer r' s' := by
  cases cached : r.histories.contains name with
  | true => exact ⟨_, _, _, .held cached⟩
  | false =>
    rcases read : readHistory r.name name s with ⟨_ | h, s'⟩
    · exact ⟨_, _, _, .failed cached read⟩
    · exact ⟨_, _, _, .read cached read⟩

section
variable {name : String} {answer : Except DirectoryError Unit} {r' : Registry} {s' : σ}
  (reads : ReadsFor name r s answer r' s')
include reads

theorem ReadsFor.readForUpdate_eq : r.readForUpdate name s = (answer, r', s') := by
  unfold readForUpdate
  cases reads with
  | held cached => rw [if_pos cached]
  | failed absent read => simp only [absent, Bool.false_eq_true, if_false, read]
  | read absent read => simp only [absent, Bool.false_eq_true, if_false, read]

theorem ReadsFor.sameName : r'.name = r.name := by cases reads <;> rfl

end

def requestOf (registry name : String) (model : Model) : PutRequest :=
  ⟨registry, name, model.document.text, .jsonSchemaDraft4, model.description⟩

/-- The calls of a registration up to a version that is to be remembered, or to the failure of one of them. -/
inductive Attempt (now : Instant) (name : String) (model : Model) (r : Registry) (s : σ) :
    Except RegistrationFault Version → Registry → σ → Prop where
  | undescribed {e : DirectoryError} {s₁ : σ} : Directory.describe r.name name none s = (.error e, s₁) →
    (∀ name' version, e ≠ .notFound name' version) → Attempt now name model r s (.error (.call e)) r s₁
  | created {name' version : String} {s₁ s₂ : σ} {receipt : Receipt} :
    Directory.describe r.name name none s = (.error (.notFound name' version), s₁) →
    Directory.create now (requestOf r.name name model) s₁ = (.ok receipt, s₂) →
    Attempt now name model r s (.ok (receipt.toVersion r.name model.document)) r s₂
  | uncreated {name' version : String} {s₁ s₂ : σ} {e : DirectoryError} :
    Directory.describe r.name name none s = (.error (.notFound name' version), s₁) →
    Directory.create now (requestOf r.name name model) s₁ = (.error e, s₂) →
    Attempt now name model r s (.error (.call e)) r s₂
  | unread {d : Described} {e : DirectoryError} {r₁ : Registry} {s₁ s₂ : σ} :
    Directory.describe r.name name none s = (.ok d, s₁) → ReadsFor name r s₁ (.error e) r₁ s₂ →
    Attempt now name model r s (.error (.history e)) r₁ s₂
  | updated {d : Described} {r₁ : Registry} {s₁ s₂ s₃ : σ} {receipt : Receipt} :
    Directory.describe r.name name none s = (.ok d, s₁) → ReadsFor name r s₁ (.ok ()) r₁ s₂ →
    Directory.update now (requestOf r.name name model) s₂ = (.ok receipt, s₃) →
    Attempt now name model r s (.ok (receipt.toVersion r.name model.document)) r₁ s₃
  | refused {d : Described} {r₁ : Registry} {s₁ s₂ s₃ : σ} {e : DirectoryError} :
    Directory.describe r.name name none s = (.ok d, s₁) → ReadsFor name r s₁ (.ok ()) r₁ s₂ →
    Directory.update now (requestOf r.name name model) s₂ = (.error e, s₃) → (∀ name', e ≠ .conflict name') →
    Attempt now name model r s (.error (.call e)) r₁ s₃
  | unconfirmed {d : Described} {r₁ : Registry} {s₁ s₂ s₃ s₄ : σ} {name' : String} {e : DirectoryError} :
    Directory.describe r.name name none s = (.ok d, s₁) → ReadsFor name r s₁ (.ok ()) r₁ s₂ →
    Directory.update now (requestOf r.name name model) s₂ = (.error (.conflict name'), s₃) →
    Directory.describe r.name name none s₃ = (.error e, s₄) →
    Attempt now name model r s (.error (.call e)) r₁ s₄
  | unchanged {d d' : Described} {r₁ : Registry} {s₁ s₂ s₃ s₄ : σ} {name' : String} :
    Directory.describe r.name name none s = (.ok d, s₁) → ReadsFor name r s₁ (.ok ()) r₁ s₂ →
    Directory.update now (requestOf r.name name model) s₂ = (.error (.conflict name'), s₃) →
    Directory.describe r.name name none s₃ = (.ok d', s₄) →
    Attempt now name model r s (.ok (d'.toVersion r.name)) r₁ s₄

/-- How a registration ends after its calls. -/
def conclude (name : String) (model : Model) :
    Except RegistrationFault Version → Registry → σ → Except SchemaError Version × Registry × σ
  | .error fault, r, s => (.error (.registration name fault), r, s)
  | .ok v, r, s => ((r.remember name model.handle v).1, (r.remember name model.handle v).2, s)

theorem exists_attempt (now : Instant) (name : String) (model : Model) (r : Registry) (s : σ) :
    ∃ found r' s', Attempt now name model r s found r' s' := by
  rcases described : Directory.describe r.name name none s with ⟨e | d, s₁⟩
  · cases e with
    | notFound name' version =>
      rcases created : Directory.create now (requestOf r.name name model) s₁ with ⟨e | receipt, s₂⟩
      · exact ⟨_, _, _, .uncreated described created⟩
      · exact ⟨_, _, _, .created described created⟩
    | _ => exact ⟨_, _, _, .undescribed described nofun⟩
  · obtain ⟨e | _, r₁, s₂, reads⟩ := exists_readsFor name r s₁
    · exact ⟨_, _, _, .unread described reads⟩
    · rcases updated : Directory.update now (requestOf r.name name model) s₂ with ⟨e | receipt, s₃⟩
      · cases e with
        | conflict name' =>
          rcases again : Directory.describe r.name name none s₃ with ⟨e | d', s₄⟩
          · exact ⟨_, _, _, .unconfirmed described reads updated again⟩
          · exact ⟨_, _, _, .unchanged described reads updated again⟩
        | _ => exact ⟨_, _, _, .refused described reads updated nofun⟩
      · exact ⟨_, _, _, .updated described reads updated⟩

/-- A registration keeps at most the history of its schema, as it is read after the first call. -/
theorem Attempt.registry {now : Instant} {name : String} {model : Model} {found : Except RegistrationFault Version}
    {r' : Registry} {s' : σ} (attempt : Attempt now name model r s found r' s') :
    r' = r ∨ ∃ answer h s₁ s₂, r.histories.contains name = false ∧
      Directory.describe r.name name none s = (answer, s₁) ∧ readHistory r.name name s₁ = (.ok h, s₂) ∧
      r' = { r with histories := r.histories.insert name h } := by
  have reading {d : Described} {answer : Except DirectoryError Unit} {s₁ s₂ : σ} {r₁ : Registry}
      (described : Directory.describe r.name name none s = (.ok d, s₁)) (reads : ReadsFor name r s₁ answer r₁ s₂) :
      r₁ = r ∨ ∃ answer h s₁ s₂, r.histories.contains name = false ∧
        Directory.describe r.name name none s = (answer, s₁) ∧ readHistory r.name name s₁ = (.ok h, s₂) ∧
        r₁ = { r with histories := r.histories.insert name h } := by
    cases reads with
    | held _ => exact .inl rfl
    | failed _ _ => exact .inl rfl
    | read absent read => exact .inr ⟨_, _, _, _, absent, described, read, rfl⟩
  cases attempt with
  | undescribed => exact .inl rfl
  | created => exact .inl rfl
  | uncreated => exact .inl rfl
  | unread described reads => exact reading described reads
  | updated described reads => exact reading described reads
  | refused described reads => exact reading described reads
  | unconfirmed described reads => exact reading described reads
  | unchanged described reads => exact reading described reads

theorem Attempt.register_eq {now : Instant} {name : QualifiedName} {model : Model}
    {found : Except RegistrationFault Version} {r' : Registry} {s' : σ}
    (attempt : Attempt now name.text model r s found r' s') :
    r.register now name model s = conclude name.text model found r' s' := by
  unfold register
  dsimp only
  cases attempt with
  | @undescribed e _ described other =>
    rw [described]
    cases e with
    | notFound name' version => exact absurd rfl (other name' version)
    | _ => rfl
  | created described created =>
    rw [requestOf] at created
    simp only [described, created, conclude]
  | uncreated described created =>
    rw [requestOf] at created
    simp only [described, created, conclude]
  | unread described reads => simp only [described, reads.readForUpdate_eq, conclude]
  | updated described reads updated =>
    rw [requestOf] at updated
    simp only [described, reads.readForUpdate_eq, updated, reads.sameName, conclude]
  | @refused _ _ _ _ _ e described reads updated other =>
    rw [requestOf] at updated
    simp only [described, reads.readForUpdate_eq, updated]
    cases e with
    | conflict name' => exact absurd rfl (other name')
    | _ => rfl
  | unconfirmed described reads updated again =>
    rw [requestOf] at updated
    simp only [described, reads.readForUpdate_eq, updated, reads.sameName, again, conclude]
  | unchanged described reads updated again =>
    rw [requestOf] at updated
    simp only [described, reads.readForUpdate_eq, updated, reads.sameName, again, conclude]

end Schemata.Registry
