import Schemata.Proofs.Directory.Numbering
import Schemata.Proofs.Registry.Coherence

/-! What the operations of a registry do to it and to its directory: it stays coherent with the shelves, and a
model that has been registered is the greatest version of its schema. -/
namespace Schemata.Registry

open LawfulDirectory

variable {σ : Type} [Directory σ] [LawfulDirectory σ] {s : σ} {c : Catalog} {r : Registry}

/-- Asking for a history leaves all but the histories as it is. It fails only for a schema that is not listed
or has no versions; a history that was not kept before holds the whole shelf. -/
theorem history_cases (name : String) (kept : Kept s) (view : catalog s = c)
    (small : (c.shelf r.name name).size < 18446744073709551616) (coherent : r.Coherent c.shelf) :
    ∃ answer histories s', r.history name s = (answer, { r with histories := histories }, s') ∧ Kept s' ∧
      catalog s' = c ∧ ({ r with histories := histories } : Registry).Coherent c.shelf ∧
      (∀ h, answer = .ok h → h.Mirrors r.name name c.shelf ∧ histories.get? name = some h ∧
        (r.histories.get? name = some h ∨ ∀ id, (c.shelf r.name name).get? id ≠ none → h.Has id)) ∧
      (r.listed.contains name = true → c.shelf r.name name ≠ Table.empty → ∃ h, answer = .ok h) := by
  rcases asked : r.history name s with ⟨answer, r', s'⟩
  cases asks_of_history asked with
  | held known =>
    refine ⟨_, _, s, rfl, kept, view, coherent, ?_, fun _ _ => ⟨_, rfl⟩⟩
    rintro _ ⟨rfl⟩
    exact ⟨coherent.histories name _ known, known, .inl known⟩
  | unlisted _ unlisted =>
    exact ⟨_, _, s, rfl, kept, view, coherent, nofun, fun listed => absurd listed (Bool.eq_false_iff.mp unlisted)⟩
  | failed _ _ failed =>
    obtain ⟨kept', view', ⟨-, bare⟩ | ⟨_, ⟨⟩, -⟩⟩ := readHistory_cases kept view small failed
    exact ⟨_, _, s', rfl, kept', view', coherent, nofun, fun _ filled => absurd bare filled⟩
  | read _ _ read =>
    obtain ⟨kept', view', ⟨⟨_, ⟨⟩⟩, -⟩ | ⟨_, ⟨rfl⟩, whole⟩⟩ := readHistory_cases kept view small read
    refine ⟨_, _, s', rfl, kept', view', coherent.keep whole, ?_, fun _ _ => ⟨_, rfl⟩⟩
    rintro _ ⟨rfl⟩
    exact ⟨whole.mirrors, Table.get?_insert_same _ _ _, .inr whole.complete⟩

/-- A version on the shelf of a listed schema is found with its document, unless the registry keeps a history
without it. -/
theorem document_ok {name : String} {id : VersionId} {text : String} (kept : Kept s) (view : catalog s = c)
    (small : (c.shelf r.name name).size < 18446744073709551616) (coherent : r.Coherent c.shelf)
    (listed : r.listed.contains name = true) (onShelf : (c.shelf r.name name).get? id = some (some text))
    (cached : ∀ h, r.histories.get? name = some h → h.Has id) :
    ∃ r' s', r.document name (some id.text) s = (.ok ⟨text⟩, r', s') := by
  obtain ⟨answer, histories, s', asked, -, -, -, found, answers⟩ := r.history_cases name kept view small coherent
  have filled : c.shelf r.name name ≠ Table.empty := by
    intro bare
    rw [bare] at onShelf
    cases onShelf
  obtain ⟨h, rfl⟩ := answers listed filled
  obtain ⟨mirrors, -, whole⟩ := found h rfl
  have has : h.Has id := by
    rcases whole with known | whole
    · exact cached h known
    · exact whole id (by rw [onShelf]; exact nofun)
  obtain ⟨v, held⟩ := has
  have there := mirrors.onShelf id v held
  obtain ⟨own, named, numbered⟩ := mirrors.own id v held
  rw [Version.OnShelf, own, named, numbered, onShelf, Option.some.injEq, Option.some.injEq] at there
  have held' : h.get? (some id.text) = some v := held
  refine ⟨{ r with histories := histories }, s', ?_⟩
  rw [document, asked]
  simp only [held', there]

structure Consults (r : Registry) (c : Catalog) (r' : Registry) (s' : σ) : Prop where
  kept : Kept s'
  view : catalog s' = c
  coherent : r'.Coherent c.shelf
  sameName : r'.name = r.name

theorem Consults.readsFor {name : String} {answer : Except DirectoryError Unit} {r' : Registry} {s' : σ}
    (consults : r.Consults c r s) (reads : ReadsFor name r s answer r' s')
    (small : (c.shelf r.name name).size < 18446744073709551616) :
    r.Consults c r' s' ∧ (answer = .ok () → r'.histories.contains name = true) := by
  have coherent := consults.coherent
  cases reads with
  | held cached => exact ⟨consults, fun _ => cached⟩
  | failed _ failed =>
    obtain ⟨kept', view', -⟩ := readHistory_cases consults.kept consults.view small failed
    exact ⟨⟨kept', view', coherent, rfl⟩, nofun⟩
  | read _ read =>
    obtain ⟨kept', view', ⟨⟨_, ⟨⟩⟩, -⟩ | ⟨_, ⟨rfl⟩, whole⟩⟩ := readHistory_cases consults.kept consults.view small read
    exact ⟨⟨kept', view', coherent.keep whole, rfl⟩, fun _ => (Table.contains_insert _ _ _ _).mpr (.inl rfl)⟩

theorem identityOf_eq_ok_iff {handle : Handle} {id : Identity} :
    r.identityOf handle = .ok id ↔ ∃ v, r.models.get? handle = some v ∧ v.identity = .ok id := by
  unfold identityOf
  cases r.models.get? handle with
  | none => simp
  | some v => cases made : v.identity <;> simp [made]

/-- What a registration answers when it has not failed: the greatest version of the schema, which is the
default of its history and what the model is registered as from then on. -/
structure Registered (r : Registry) (shelves : Shelves) (name : String) (model : Model) (v : Version) :
    Prop where
  own : v.registry = r.name
  named : v.name = name
  checksum : v.document.checksum = model.document.checksum
  greatest : (shelves r.name name).last? = some (v.id, some v.document.text)
  recorded : r.models.get? model.handle = some v
  default : ∃ h, r.histories.get? name = some h ∧ h.versions.last? = some (v.id, v)

theorem Coherent.registered {shelves : Shelves} (coherent : r.Coherent shelves) {name : String} {model : Model}
    {v : Version} (own : v.registry = r.name) (named : v.name = name)
    (checksum : v.document.checksum = model.document.checksum) (sorted : (shelves r.name name).Sorted)
    (greatest : (shelves r.name name).last? = some (v.id, some v.document.text))
    (ready : r.histories.contains name = true ∨ ∀ handle w, r.models.get? handle = some w → w.name ≠ name) :
    ∃ kept r', r.remember name model.handle v = (.ok kept, r') ∧ r'.Coherent shelves ∧ r'.name = r.name ∧
      r'.Registered shelves name model kept := by
  subst named
  obtain ⟨kept, r', h, remembered, coherent', name, ownKept, namedKept, numbered, document, recorded, there,
    last⟩ := @Coherent.remember r shelves coherent model.handle v own checksum sorted greatest ready
  refine ⟨kept, r', remembered, coherent', name, ⟨ownKept.trans name.symm, namedKept, ?_, ?_, recorded,
    h, there, ?_⟩⟩
  · rw [document, checksum]
  · rw [name, numbered, document, greatest]
  · rw [numbered, last]

/-- What a registration may do: it adds the model's document at most, and keeps the registry coherent. -/
structure Registers (r : Registry) (shelves : Shelves) (name : String) (model : Model)
    (result : Except SchemaError Version × Registry × σ) : Prop where
  kept : Kept result.2.2
  adds : shelves.Adds [model.document.text] (catalog result.2.2).shelf
  coherent : result.2.1.Coherent (catalog result.2.2).shelf
  sameName : result.2.1.name = r.name
  registered : ∀ v, result.1 = .ok v → result.2.1.Registered (catalog result.2.2).shelf name model v

section
variable {shelves : Shelves} {name : String} {model : Model} {r' : Registry} (kept : Kept s)
  (adds : shelves.Adds [model.document.text] (catalog s).shelf) (coherent : r'.Coherent (catalog s).shelf)
  (sameName : r'.name = r.name)
include kept adds coherent sameName

theorem registers_error (fault : RegistrationFault) :
    Registers r shelves name model (conclude name model (.error fault) r' s) :=
  ⟨kept, adds, coherent, sameName, nofun⟩

theorem registers_remember {v : Version} (own : v.registry = r'.name) (named : v.name = name)
    (checksum : v.document.checksum = model.document.checksum)
    (greatest : ((catalog s).shelf r'.name name).last? = some (v.id, some v.document.text))
    (ready : r'.histories.contains name = true ∨ ∀ handle w, r'.models.get? handle = some w → w.name ≠ name) :
    Registers r shelves name model (conclude name model (.ok v) r' s) := by
  obtain ⟨last, r'', remembered, coherent', sameName', registered⟩ :=
    coherent.registered own named checksum ((orderly kept).sorted _ _) greatest ready
  rw [conclude, remembered]
  refine ⟨kept, adds, coherent', sameName'.trans sameName, ?_⟩
  rintro _ ⟨rfl⟩
  exact registered

end

section
variable {name : String} {model : Model} {r' : Registry} {s' : σ} (consults : r.Consults c r' s)
include consults

theorem Consults.registers_error (fault : RegistrationFault) :
    Registers r c.shelf name model (conclude name model (.error fault) r' s) :=
  Registry.registers_error consults.kept (consults.view ▸ .nothing) (consults.view ▸ consults.coherent)
    consults.sameName fault

variable {answer : Except DirectoryError Receipt}
  (wrote : c.shelf.Wrote (requestOf r.name name model) answer (catalog s').shelf)
  (numbered : ∀ registry name, (c.shelf registry name).Numbered)
include wrote numbered

theorem Consults.still : r'.Coherent (catalog s').shelf :=
  consults.coherent.extends (wrote.adds.extends numbered)

variable (kept : Kept s')
include kept

theorem Consults.registers_fault (fault : RegistrationFault) :
    Registers r c.shelf name model (conclude name model (.error fault) r' s') :=
  Registry.registers_error kept wrote.adds (consults.still wrote numbered) consults.sameName fault

theorem Consults.registers_written {receipt : Receipt} (accepted : answer = .ok receipt)
    (ready : r'.histories.contains name = true ∨ ∀ handle w, r'.models.get? handle = some w → w.name ≠ name) :
    Registers r c.shelf name model (conclude name model (.ok (receipt.toVersion r.name model.document)) r' s') := by
  obtain ⟨named, last⟩ := wrote.last numbered accepted
  exact registers_remember kept wrote.adds (consults.still wrote numbered) consults.sameName
    consults.sameName.symm named rfl (consults.sameName ▸ last) ready

end

section
variable {name : String} {model : Model}

/-- A schema that has been created is new to the registry: no model is registered under its name. -/
theorem Consults.registers_created {s' : σ} {receipt : Receipt} (consults : r.Consults c r s) (kept : Kept s')
    (created : c.shelf.Created (requestOf r.name name model) (.ok receipt) (catalog s').shelf)
    (numbered : ∀ registry name, (c.shelf registry name).Numbered) :
    Registers r c.shelf name model (conclude name model (.ok (receipt.toVersion r.name model.document)) r s') := by
  refine consults.registers_written created.wrote numbered kept rfl (.inr fun handle w known same => ?_)
  have bare : c.shelf r.name name = Table.empty := by
    generalize (catalog s').shelf = after at created
    cases created with
    | added bare _ _ => exact bare
  have relies := consults.coherent.models handle w known
  have onShelf := relies.onShelf
  rw [Version.OnShelf, relies.own, same, bare] at onShelf
  cases onShelf

/-- The content of the greatest version is there already, and that version is described. -/
theorem Consults.registers_unchanged {r' : Registry} {s' s'' : σ} {conflicting : String} {d : Described}
    (consults : r.Consults c r' s) (kept : Kept s')
    (updated : c.shelf.Updated (requestOf r.name name model) (.error (.conflict conflicting)) (catalog s').shelf)
    (described : Directory.describe r.name name none s' = (.ok d, s'')) (known : r'.histories.contains name = true) :
    Registers r c.shelf name model (conclude name model (.ok (d.toVersion r.name)) r' s'') := by
  obtain ⟨still, id, text, latest, same⟩ : (catalog s').shelf = c.shelf ∧
      ∃ id text, (c.shelf r.name name).last? = some (id, some text) ∧
        Checksum.ofText text = model.document.checksum := by
    generalize (catalog s').shelf = after at updated
    cases updated with
    | refused ordinary => exact absurd rfl (ordinary _)
    | unchanged last same => exact ⟨rfl, _, _, last, same⟩
  obtain ⟨kept', view, describes⟩ := describe_law kept described
  have shelf : (catalog s'').shelf = c.shelf := (congrArg Catalog.shelf view).trans still
  rw [still] at describes
  cases describes with
  | found named _ _ last =>
    have greatest := last rfl
    rw [greatest, Option.some.injEq, Prod.mk.injEq, Option.some.injEq] at latest
    refine registers_remember kept' (shelf ▸ .nothing) (shelf ▸ consults.coherent) consults.sameName
      consults.sameName.symm named ?_ ?_ (.inl known)
    · rw [← same, ← latest.2]
      rfl
    · rw [shelf, consults.sameName]
      exact greatest

end

section
variable {now : Instant} (proper : now.Proper) (kept : Kept s) (view : catalog s = c)
  (numbered : ∀ registry name, (c.shelf registry name).Numbered) (coherent : r.Coherent c.shelf)
include proper kept view numbered coherent

theorem Attempt.registers {name : String} {model : Model} {found : Except RegistrationFault Version} {r' : Registry}
    {s' : σ} (attempt : Attempt now name model r s found r' s')
    (small : (c.shelf r.name name).size < 18446744073709551615) :
    Registers r c.shelf name model (conclude name model found r' s') := by
  have asked {answer : Except DirectoryError Described} {s₁ : σ}
      (described : Directory.describe r.name name none s = (answer, s₁)) : r.Consults c r s₁ := by
    obtain ⟨kept₁, view₁, -⟩ := describe_law kept described
    exact ⟨kept₁, view₁.trans view, coherent, rfl⟩
  have read {answer : Except DirectoryError Described} {done : Except DirectoryError Unit} {r₁ : Registry} {s₁ s₂ : σ}
      (described : Directory.describe r.name name none s = (answer, s₁)) (reads : ReadsFor name r s₁ done r₁ s₂) :
      r.Consults c r₁ s₂ ∧ (done = .ok () → r₁.histories.contains name = true) :=
    (asked described).readsFor reads (Nat.lt_succ_of_lt small)
  have wrote {answer : Except DirectoryError Receipt} {r₁ : Registry} {s₁ s₂ : σ} (consults : r.Consults c r₁ s₁)
      (updated : Directory.update now (requestOf r.name name model) s₁ = (answer, s₂)) :
      Kept s₂ ∧ c.shelf.Updated (requestOf r.name name model) answer (catalog s₂).shelf ∧
        c.shelf.Wrote (requestOf r.name name model) answer (catalog s₂).shelf := by
    obtain ⟨kept₂, change⟩ := update_law proper consults.kept updated
    rw [consults.view] at change
    exact ⟨kept₂, change, change.wrote (numbered _ _) small⟩
  cases attempt with
  | undescribed described _ => exact (asked described).registers_error _
  | created described created =>
    have consults := asked described
    obtain ⟨kept', change⟩ := create_law proper consults.kept created
    rw [consults.view] at change
    exact consults.registers_created kept' change numbered
  | uncreated described created =>
    have consults := asked described
    obtain ⟨kept', change⟩ := create_law proper consults.kept created
    rw [consults.view] at change
    exact consults.registers_fault change.wrote numbered kept' _
  | unread described reads => exact (read described reads).1.registers_error _
  | updated described reads updated =>
    obtain ⟨consults, known⟩ := read described reads
    obtain ⟨kept', -, wrote⟩ := wrote consults updated
    exact consults.registers_written wrote numbered kept' rfl (.inl (known rfl))
  | refused described reads updated _ =>
    obtain ⟨consults, -⟩ := read described reads
    obtain ⟨kept', -, wrote⟩ := wrote consults updated
    exact consults.registers_fault wrote numbered kept' _
  | unconfirmed described reads updated again =>
    obtain ⟨consults, -⟩ := read described reads
    obtain ⟨kept₃, -, wrote⟩ := wrote consults updated
    obtain ⟨kept', view', -⟩ := describe_law kept₃ again
    rw [← view'] at wrote
    exact consults.registers_fault wrote numbered kept' _
  | unchanged described reads updated again =>
    obtain ⟨consults, known⟩ := read described reads
    obtain ⟨kept₃, change, -⟩ := wrote consults updated
    exact consults.registers_unchanged kept₃ change again (known rfl)

end

theorem register_cases {now : Instant} (proper : now.Proper) (name : QualifiedName) (model : Model)
    (kept : Kept s) (view : catalog s = c) (numbered : ∀ registry name, (c.shelf registry name).Numbered)
    (small : (c.shelf r.name name.text).size < 18446744073709551615) (coherent : r.Coherent c.shelf) :
    Registers r c.shelf name.text model (r.register now name model s) := by
  obtain ⟨found, r', s', attempt⟩ := exists_attempt now name.text model r s
  rw [attempt.register_eq]
  exact attempt.registers proper kept view numbered coherent small

end Schemata.Registry
