import Schemata.Bus
import Schemata.Proofs.Registry.Registration

/-! Sessions: one registry at work on a directory that others read and write as well, in any order of steps.
What the steps see of versions is collected; all of it is still on the shelves in the end. -/
namespace Schemata

open LawfulDirectory

/-- A version as it has been seen: its address and its content. -/
structure Sighting where
  registry : String
  name : String
  id : VersionId
  text : String
deriving DecidableEq, Repr

def Version.sighting (v : Version) : Sighting := ⟨v.registry, v.name, v.id, v.document.text⟩

def Sighting.OnShelf (x : Sighting) (shelves : Shelves) : Prop :=
  (shelves x.registry x.name).get? x.id = some (some x.text)

abbrev Clock := { now : Instant // now.Proper }

structure Session (σ : Type) where
  registry : Registry
  directory : σ

/-- The operations of the session's registry, and the calls that others make on the directory. -/
inductive Step where
  | load (now : Clock)
  | history (name : String)
  | document (name : String) (version : Option String)
  | reflect (name : String) (version : Option String)
  | register (now : Clock) (name : QualifiedName) (model : Model)
  | send (publisher : Publisher) (now : Clock) (source : String) (model : Model) (payload : Json)
    (resources : List String)
  | receive (defaultRegistry : String) (e : Envelope)
  | listSchemas (now : Clock) (request : ListRequest)
  | listVersions (registry name : String) (token : Option String)
  | describe (registry name : String) (version : Option String)
  | create (now : Clock) (request : PutRequest)
  | update (now : Clock) (request : PutRequest)

namespace Step

def contents : Step → List String
  | register _ _ model => [model.document.text]
  | send _ _ _ model _ _ => [model.document.text]
  | create _ request => [request.content]
  | update _ request => [request.content]
  | _ => []

variable {σ : Type}

/-- The session after an operation of its registry, and what is seen if it does not fail. -/
def operate (result : Except ε α × Registry × σ) (seen : α → List Sighting) : Session σ × List Sighting :=
  (⟨result.2.1, result.2.2⟩, (result.1.toOption.map seen).getD [])

def call (w : Session σ) (result : Except ε α × σ) (seen : α → List Sighting) : Session σ × List Sighting :=
  operate (result.1, w.registry, result.2) seen

def run [Directory σ] (w : Session σ) : Step → Session σ × List Sighting
  | load now => operate (w.registry.load now.val w.directory) fun _ => []
  | history name =>
    operate (w.registry.history name w.directory) fun h => h.versions.values.map Version.sighting
  | document name version =>
    let result := w.registry.document name version w.directory
    let ids := match version with
      | some text => [VersionId.mk text]
      | none => ((result.2.1.histories.get? name).bind History.defaultId?).toList
    operate result fun document => ids.map fun id => ⟨w.registry.name, name, id, document.text⟩
  | reflect name version => operate (w.registry.model name version w.directory) fun _ => []
  | register now name model => operate (w.registry.register now.val name model w.directory) fun v => [v.sighting]
  | send publisher now source model payload resources =>
    operate (publisher.prepare now.val source model payload resources w.registry w.directory) fun _ => []
  | receive defaultRegistry e => operate (e.open? defaultRegistry w.registry w.directory) fun _ => []
  | listSchemas now request => call w (Directory.listSchemas now.val request w.directory) fun _ => []
  | listVersions registry name token =>
    call w (Directory.listVersions registry name token w.directory) fun _ => []
  | describe registry name version =>
    call w (Directory.describe registry name version w.directory) fun d =>
      [⟨registry, name, ⟨d.receipt.version⟩, d.content⟩]
  | create now request =>
    call w (Directory.create now.val request w.directory) fun receipt =>
      [⟨request.registry, request.name, ⟨receipt.version⟩, request.content⟩]
  | update now request =>
    call w (Directory.update now.val request w.directory) fun receipt =>
      [⟨request.registry, request.name, ⟨receipt.version⟩, request.content⟩]

end Step

namespace Session

variable {σ : Type} [Directory σ]

def run (w : Session σ) : List Step → Session σ × List Sighting
  | [] => (w, [])
  | step :: rest =>
    let next := step.run w
    let last := next.1.run rest
    (last.1, next.2 ++ last.2)

/-- Something holds of the session before some steps and after each of them. -/
def Always (p : Session σ → Prop) (w : Session σ) : List Step → Prop
  | [] => p w
  | step :: rest => p w ∧ (step.run w).1.Always p rest

theorem Always.here {p : Session σ → Prop} {w : Session σ} {steps : List Step} (always : w.Always p steps) : p w := by
  cases steps with
  | nil => exact always
  | cons step rest => exact always.1

theorem Always.append {p : Session σ → Prop} {w : Session σ} {first later : List Step}
    (always : w.Always p (first ++ later)) : w.Always p first ∧ (w.run first).1.Always p later := by
  induction first generalizing w with
  | nil => exact ⟨always.here, always⟩
  | cons step rest ih => exact ⟨⟨always.1, (ih always.2).1⟩, (ih always.2).2⟩

theorem Always.last {p : Session σ → Prop} {w : Session σ} {steps : List Step} (always : w.Always p steps) :
    p (w.run steps).1 := by
  rw [← List.append_nil steps] at always
  exact always.append.2

/-- Numbers are left all the time, on the shelves that the directory of the session is seen to have. -/
def RoomyFor (view : Session σ → Shelves) (w : Session σ) (steps : List Step) : Prop :=
  w.Always (fun w => (view w).Roomy) steps

/-- A run that is not longer than there are numbers never runs out of them, if a step takes one at most. -/
theorem roomyFor_of_length {view : Session σ → Shelves} (invariant : Session σ → Prop)
    (grows : ∀ w (step : Step), invariant w → (view w).Roomy → invariant (step.run w).1 ∧
      ∀ registry name, (view (step.run w).1 registry name).size ≤ (view w registry name).size + 1)
    {w : Session σ} {steps : List Step} {n : Nat} (holds : invariant w)
    (sizes : ∀ registry name, (view w registry name).size ≤ n)
    (few : n + steps.length < 18446744073709551615) : w.RoomyFor view steps := by
  have roomy : (view w).Roomy := fun registry name => Nat.lt_of_le_of_lt (sizes registry name) (by omega)
  induction steps generalizing w n with
  | nil => exact roomy
  | cons step rest ih =>
    obtain ⟨holds', size_le⟩ := grows w step holds roomy
    have sizes' (registry name : String) : (view (step.run w).1 registry name).size ≤ n + 1 :=
      Nat.le_trans (size_le registry name) (Nat.succ_le_succ (sizes registry name))
    rw [List.length_cons] at few
    exact ⟨roomy, ih holds' sizes' (by omega) fun registry name =>
      Nat.lt_of_le_of_lt (sizes' registry name) (by omega)⟩

variable [LawfulDirectory σ]

def shelf (w : Session σ) : Shelves := (catalog w.directory).shelf

structure Orderly (w : Session σ) : Prop where
  kept : Kept w.directory
  numbered : ∀ registry name, (w.shelf registry name).Numbered
  coherent : w.registry.Coherent w.shelf

/-- The session goes over to another by adding at most some contents to its directory. -/
structure Leads (w : Session σ) (contents : List String) (w' : Session σ) : Prop where
  orderly : w'.Orderly
  adds : w.shelf.Adds contents w'.shelf
  sameName : w'.registry.name = w.registry.name

section
variable {w : Session σ} {contents : List String} {r' : Registry} {s' : σ}

theorem Orderly.sorted (orderly : w.Orderly) (registry name : String) : (w.shelf registry name).Sorted :=
  (LawfulDirectory.orderly orderly.kept).sorted registry name

theorem Leads.here (orderly : w.Orderly) : w.Leads contents w := ⟨orderly, .nothing, rfl⟩

theorem Orderly.reads (orderly : w.Orderly) (kept : Kept s') (view : catalog s' = catalog w.directory)
    (coherent : r'.Coherent w.shelf) (sameName : r'.name = w.registry.name) :
    w.Leads contents ⟨r', s'⟩ := by
  have same : Session.shelf ⟨r', s'⟩ = w.shelf := congrArg Catalog.shelf view
  refine ⟨⟨kept, ?_, ?_⟩, ?_, sameName⟩
  · rw [same]
    exact orderly.numbered
  · rw [same]
    exact coherent
  · rw [same]
    exact .nothing

/-- What adds to the directory behind the registry's back. -/
theorem Orderly.writes (orderly : w.Orderly) (kept : Kept s')
    (adds : w.shelf.Adds contents (catalog s').shelf) : w.Leads contents ⟨w.registry, s'⟩ :=
  ⟨⟨kept, adds.still_numbered orderly.numbered, orderly.coherent.extends (adds.extends orderly.numbered)⟩, adds, rfl⟩

variable {name : String} {model : Model} {answer : Except SchemaError Version}

theorem Orderly.registers (orderly : w.Orderly)
    (registers : w.registry.Registers w.shelf name model (answer, r', s')) :
    w.Leads [model.document.text] ⟨r', s'⟩ :=
  ⟨⟨registers.kept, registers.adds.still_numbered orderly.numbered, registers.coherent⟩, registers.adds,
    registers.sameName⟩

end

end Session

namespace Step

variable {σ : Type} [Directory σ] [LawfulDirectory σ] {w : Session σ}

/-- What one step does, and that all it sees is on the shelves afterwards. -/
def Sound (w : Session σ) (step : Step) : Prop :=
  w.Leads step.contents (step.run w).1 ∧ ∀ x ∈ (step.run w).2, x.OnShelf (step.run w).1.shelf

theorem sound_of_operate {step : Step} {answer : Except ε α} {r' : Registry} {s' : σ} {seen : α → List Sighting}
    (ran : step.run w = operate (answer, r', s') seen) (leads : w.Leads step.contents ⟨r', s'⟩)
    (shown : ∀ a, answer = .ok a → ∀ x ∈ seen a, x.OnShelf (catalog s').shelf) : step.Sound w := by
  rw [Sound, ran]
  refine ⟨leads, ?_⟩
  intro x member
  cases answer with
  | error e => cases member
  | ok a => exact shown a rfl x member

theorem sound_of_silent {step : Step} {answer : Except ε α} {r' : Registry} {s' : σ}
    (ran : step.run w = operate (answer, r', s') fun _ => []) (leads : w.Leads step.contents ⟨r', s'⟩) :
    step.Sound w := sound_of_operate ran leads fun _ _ _ member => absurd member List.not_mem_nil

section
variable (orderly : w.Orderly)
include orderly

theorem sound_load (now : Clock) : (load now).Sound w := by
  obtain ⟨answer, r', s', loaded, kept, view, ⟨-, rfl⟩ | ⟨-, listed, rfl, still, -⟩⟩ :=
    @Registry.load_cases _ _ w.directory _ _ now.val w.registry orderly.kept rfl
  · exact sound_of_silent (by rw [run, loaded]) (orderly.reads kept view orderly.coherent rfl)
  · exact sound_of_silent (by rw [run, loaded]) (orderly.reads kept view (orderly.coherent.forget still) rfl)

theorem sound_listSchemas (now : Clock) (request : ListRequest) : (listSchemas now request).Sound w := by
  rcases listed : Directory.listSchemas now.val request w.directory with ⟨answer, s'⟩
  obtain ⟨kept, view, -⟩ := listSchemas_law orderly.kept listed
  exact sound_of_silent (by rw [run, listed, call]) (orderly.reads kept view orderly.coherent rfl)

theorem sound_listVersions (registry name : String) (token : Option String) :
    (listVersions registry name token).Sound w := by
  rcases listed : Directory.listVersions registry name token w.directory with ⟨answer, s'⟩
  obtain ⟨kept, view, -⟩ := listVersions_law orderly.kept listed
  exact sound_of_silent (by rw [run, listed, call]) (orderly.reads kept view orderly.coherent rfl)

theorem sound_describe (registry name : String) (version : Option String) :
    (describe registry name version).Sound w := by
  rcases described : Directory.describe registry name version w.directory with ⟨answer, s'⟩
  obtain ⟨kept, view, describes⟩ := describe_law orderly.kept described
  refine sound_of_operate (by rw [run, described, call]) (orderly.reads kept view orderly.coherent rfl) ?_
  rintro d rfl x member
  rw [List.mem_singleton.mp member, view]
  cases describes with
  | found _ there _ _ => exact there

/-- A request that is written is seen under the number that it got. -/
theorem sound_of_wrote {step : Step} {request : PutRequest} {answer : Except DirectoryError Receipt} {s' : σ}
    (ran : step.run w = operate (answer, w.registry, s') fun receipt =>
      [⟨request.registry, request.name, ⟨receipt.version⟩, request.content⟩])
    (contents : step.contents = [request.content]) (kept : Kept s')
    (wrote : w.shelf.Wrote request answer (catalog s').shelf) : step.Sound w := by
  have leads : w.Leads step.contents ⟨w.registry, s'⟩ := by
    rw [contents]
    exact orderly.writes kept wrote.adds
  refine sound_of_operate ran leads ?_
  rintro receipt rfl x member
  rw [List.mem_singleton.mp member]
  obtain ⟨-, greatest⟩ := wrote.last orderly.numbered rfl
  exact ((leads.orderly.sorted _ _).last?_eq_some_iff.mp greatest).1

theorem sound_create (now : Clock) (request : PutRequest) : (create now request).Sound w := by
  rcases created : Directory.create now.val request w.directory with ⟨answer, s'⟩
  obtain ⟨kept, change⟩ := create_law now.property orderly.kept created
  exact sound_of_wrote orderly (by rw [run, created, call]) rfl kept change.wrote

variable (small : w.shelf.Roomy)
include small

theorem sound_history (name : String) : (history name).Sound w := by
  obtain ⟨answer, histories, s', asked, kept, view, coherent, found, -⟩ :=
    w.registry.history_cases name orderly.kept rfl (Nat.lt_succ_of_lt (small _ _)) orderly.coherent
  apply sound_of_operate (by rw [run, asked]) (orderly.reads kept view coherent rfl)
  intro h answered x member
  obtain ⟨v, inside, rfl⟩ := List.mem_map.mp member
  obtain ⟨⟨id, v⟩, entry, rfl⟩ := List.mem_map.mp inside
  have mirrors := (found h answered).1
  rw [view]
  exact mirrors.onShelf id v (mirrors.sorted.get?_of_mem entry)

theorem sound_update (now : Clock) (request : PutRequest) : (update now request).Sound w := by
  rcases updated : Directory.update now.val request w.directory with ⟨answer, s'⟩
  obtain ⟨kept, change⟩ := update_law now.property orderly.kept updated
  exact sound_of_wrote orderly (by rw [run, updated, call]) rfl kept
    (change.wrote (orderly.numbered _ _) (small _ _))

theorem register_leads (now : Clock) (name : QualifiedName) (model : Model) :
    ∃ answer r' s', w.registry.register now.val name model w.directory = (answer, r', s') ∧
      w.Leads [model.document.text] ⟨r', s'⟩ ∧
      ∀ v, answer = .ok v → r'.Registered (catalog s').shelf name.text model v := by
  rcases registered : w.registry.register now.val name model w.directory with ⟨answer, r', s'⟩
  have registers := Registry.register_cases now.property name model orderly.kept rfl orderly.numbered
    (small w.registry.name name.text) orderly.coherent
  rw [registered] at registers
  exact ⟨answer, r', s', rfl, orderly.registers registers, registers.registered⟩

theorem sound_register (now : Clock) (name : QualifiedName) (model : Model) :
    (register now name model).Sound w := by
  obtain ⟨answer, r', s', registered, leads, found⟩ := register_leads orderly small now name model
  refine sound_of_operate (by rw [run, registered]) leads ?_
  rintro v rfl x member
  rw [List.mem_singleton.mp member]
  have done := found v rfl
  have own : v.registry = w.registry.name := done.own.trans leads.sameName
  change ((catalog s').shelf v.registry v.name).get? v.id = _
  rw [done.own, done.named]
  exact ((leads.orderly.sorted _ _).last?_eq_some_iff.mp done.greatest).1

/-- What asking for a document leads to, and where the document comes from. -/
theorem document_cases (name : String) (version : Option String) :
    ∃ answer histories s', w.registry.document name version w.directory =
        (answer, { w.registry with histories := histories }, s') ∧
      (∀ contents, w.Leads contents ⟨{ w.registry with histories := histories }, s'⟩) ∧
      catalog s' = catalog w.directory ∧
      ∀ document, answer = .ok document → ∃ h v, histories.get? name = some h ∧
        h.Mirrors w.registry.name name w.shelf ∧ h.get? version = some v ∧ v.document = document := by
  obtain ⟨answer, histories, s', asked, kept, view, coherent, found, -⟩ :=
    w.registry.history_cases name orderly.kept rfl (Nat.lt_succ_of_lt (small _ _)) orderly.coherent
  have leads (contents : List String) : w.Leads contents ⟨{ w.registry with histories := histories }, s'⟩ :=
    orderly.reads kept view coherent rfl
  rw [Registry.document, asked]
  cases answer with
  | error e => exact ⟨_, histories, s', rfl, leads, view, fun _ answered => by cases answered⟩
  | ok h =>
    obtain ⟨mirrors, there, -⟩ := found h rfl
    cases version' : h.get? version with
    | none =>
      simp only [version']
      exact ⟨_, histories, s', rfl, leads, view, fun _ answered => by cases answered⟩
    | some v =>
      simp only [version']
      refine ⟨_, histories, s', rfl, leads, view, ?_⟩
      rintro document ⟨rfl⟩
      exact ⟨h, v, there, mirrors, version', rfl⟩

theorem sound_document (name : String) (version : Option String) : (document name version).Sound w := by
  obtain ⟨answer, histories, s', asked, leads, view, found⟩ := document_cases orderly small name version
  apply sound_of_operate (by unfold run; dsimp only; rw [asked]) (leads _)
  intro document answered x member
  obtain ⟨id, among, rfl⟩ := List.mem_map.mp member
  obtain ⟨h, v, there, mirrors, held, rfl⟩ := found document answered
  have entry : h.versions.get? id = some v := by
    cases version with
    | some text =>
      rw [List.mem_singleton.mp among]
      exact held
    | none =>
      obtain ⟨⟨other, w⟩, last, rfl⟩ := Option.map_eq_some_iff.mp held
      rw [there] at among
      simp only [Option.bind_some, History.defaultId?, last, Option.map_some, Option.mem_toList] at among
      obtain rfl : other = id := Option.some.inj among
      exact (mirrors.sorted.last?_eq_some_iff.mp last).1
  have shelved := mirrors.onShelf id v entry
  obtain ⟨own, named, rfl⟩ := mirrors.own id v entry
  rw [Version.OnShelf, own, named] at shelved
  rw [Sighting.OnShelf, view]
  exact shelved

theorem model_leads (name : String) (version : Option String) (contents : List String) :
    ∃ answer r' s', w.registry.model name version w.directory = (answer, r', s') ∧ w.Leads contents ⟨r', s'⟩ := by
  obtain ⟨answer, histories, s', asked, leads, -⟩ := document_cases orderly small name version
  rw [Registry.model, asked]
  cases answer with
  | error e => exact ⟨_, _, s', rfl, leads contents⟩
  | ok document => exact ⟨_, _, s', rfl, leads contents⟩

theorem sound_reflect (name : String) (version : Option String) : (reflect name version).Sound w := by
  obtain ⟨answer, r', s', asked, leads⟩ := model_leads orderly small name version []
  exact sound_of_silent (by rw [run, asked]) leads

theorem sound_receive (defaultRegistry : String) (e : Envelope) : (receive defaultRegistry e).Sound w := by
  have still : w.Leads (receive defaultRegistry e).contents ⟨w.registry, w.directory⟩ := .here orderly
  rcases opened : e.open? defaultRegistry w.registry w.directory with ⟨answer, r', s'⟩
  refine sound_of_silent (by rw [run, opened]) ?_
  unfold Envelope.open? at opened
  split at opened
  · cases opened
    exact still
  · rename_i id _
    split at opened
    · cases opened
      exact still
    · obtain ⟨answer, r'', s'', asked, leads⟩ := model_leads orderly small id.schema (some id.version)
        (receive defaultRegistry e).contents
      rw [asked] at opened
      cases answer with
      | error e =>
        cases opened
        exact leads
      | ok model =>
        dsimp only at opened
        split at opened <;> (cases opened; exact leads)

/-- A model that is published is registered first, if it has not been: the registry holds a version of it with
the identity that it is published under. -/
theorem identify_leads (now : Clock) (source : String) (model : Model) :
    ∃ answer r' s', Publisher.identify now.val source model w.registry w.directory = (answer, r', s') ∧
      w.Leads [model.document.text] ⟨r', s'⟩ ∧
      ∀ id, answer = .ok id → ∃ v, r'.models.get? model.handle = some v ∧ v.identity = .ok id := by
  have still : w.Leads [model.document.text] ⟨w.registry, w.directory⟩ := .here orderly
  unfold Publisher.identify
  split
  · rename_i id known
    refine ⟨_, _, _, rfl, still, ?_⟩
    rintro _ ⟨rfl⟩
    exact Registry.identityOf_eq_ok_iff.mp known
  · split
    · exact ⟨_, _, _, rfl, still, nofun⟩
    · rename_i name _
      obtain ⟨answer, r', s', registered, leads, found⟩ := register_leads orderly small now name model
      rw [registered]
      cases answer with
      | error e => exact ⟨_, _, _, rfl, leads, nofun⟩
      | ok v =>
        dsimp only
        split
        · exact ⟨_, _, _, rfl, leads, nofun⟩
        · rename_i id made
          refine ⟨_, _, _, rfl, leads, ?_⟩
          rintro _ ⟨rfl⟩
          exact ⟨v, (found v rfl).recorded, made⟩
  · exact ⟨_, _, _, rfl, still, nofun⟩

theorem sound_send (publisher : Publisher) (now : Clock) (source : String) (model : Model) (payload : Json)
    (resources : List String) : (send publisher now source model payload resources).Sound w := by
  have still : w.Leads (send publisher now source model payload resources).contents
      ⟨w.registry, w.directory⟩ := .here orderly
  rcases prepared : publisher.prepare now.val source model payload resources w.registry w.directory with
    ⟨answer, r', s'⟩
  refine sound_of_silent (by rw [run, prepared]) ?_
  unfold Publisher.prepare at prepared
  split at prepared
  · cases prepared
    exact still
  · obtain ⟨answer, r'', s'', identified, leads, -⟩ := identify_leads orderly small now source model
    rw [identified] at prepared
    cases answer <;> (cases prepared; exact leads)

theorem run_sound : ∀ step : Step, step.Sound w
  | load now => sound_load orderly now
  | history name => sound_history orderly small name
  | document name version => sound_document orderly small name version
  | reflect name version => sound_reflect orderly small name version
  | register now name model => sound_register orderly small now name model
  | send publisher now source model payload resources =>
    sound_send orderly small publisher now source model payload resources
  | receive defaultRegistry e => sound_receive orderly small defaultRegistry e
  | listSchemas now request => sound_listSchemas orderly now request
  | listVersions registry name token => sound_listVersions orderly registry name token
  | describe registry name version => sound_describe orderly registry name version
  | create now request => sound_create orderly now request
  | update now request => sound_update orderly small now request

end

end Step

namespace Session

variable {σ : Type} [Directory σ]

variable [LawfulDirectory σ] {w : Session σ}

/-- What a session over some steps leads to: all that was on the shelves still is, and what is new is one of
the contents. -/
structure Reaches (w : Session σ) (contents : List String) (w' : Session σ) : Prop where
  orderly : w'.Orderly
  grown : w'.shelf.Extends w.shelf
  origin : ∀ registry name id content, (w'.shelf registry name).get? id = some content →
    (w.shelf registry name).get? id = some content ∨ ∃ text ∈ contents, content = some text
  sameName : w'.registry.name = w.registry.name

theorem run_reaches {steps : List Step} (orderly : w.Orderly) (within : w.RoomyFor shelf steps) :
    w.Reaches (steps.flatMap Step.contents) (w.run steps).1 ∧
      ∀ x ∈ (w.run steps).2, x.OnShelf (w.run steps).1.shelf := by
  induction steps generalizing w with
  | nil => exact ⟨⟨orderly, .refl _, fun _ _ _ _ found => .inl found, rfl⟩, nofun⟩
  | cons step rest ih =>
    obtain ⟨leads, seen⟩ := step.run_sound orderly within.1
    obtain ⟨reaches, later⟩ := ih leads.orderly within.2
    have grown := leads.adds.extends orderly.numbered
    refine ⟨⟨reaches.orderly, reaches.grown.trans grown, ?_, reaches.sameName.trans leads.sameName⟩, ?_⟩
    · intro registry name id content found
      rw [List.flatMap_cons]
      rcases reaches.origin registry name id content found with before | ⟨text, given, same⟩
      · rcases leads.adds.origin before with start | ⟨text, given, same⟩
        · exact .inl start
        · exact .inr ⟨text, List.mem_append_left _ given, same⟩
      · exact .inr ⟨text, List.mem_append_right _ given, same⟩
    · intro x member
      rcases List.mem_append.mp member with now | after
      · exact reaches.grown _ _ _ _ (seen x now)
      · exact later x after

end Session

end Schemata
