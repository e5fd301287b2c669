import Schemata.Proofs.Move
import Schemata.Proofs.Registry.Enrolment

/-! Sessions on a directory whose calls may fail, and registrations that are made twice in them. Between the
two the registry may load, read, forget and register other models, and others may write other schemas. -/
namespace Schemata

open ReportingDirectory

namespace Session

variable {σ : Type} [Directory σ] [ReportingDirectory σ]

def account (w : Session σ) : Report := report w.directory

/-- Histories agree with what the directory reports, and versions are numbered without a gap. -/
structure Truthful (w : Session σ) : Prop where
  kept : Kept w.directory
  numbered : ∀ registry name, (w.account.shelf registry name).Numbered
  recounts : w.registry.Recounts w.account

/-- The session goes over to another, with some versions more at most. -/
structure Carries (w w' : Session σ) : Prop where
  truthful : w'.Truthful
  advances : w.account.Advances w'.account
  size_le : ∀ registry name, (w'.account.shelf registry name).size ≤ (w.account.shelf registry name).size + 1
  sameName : w'.registry.name = w.registry.name

section
variable {w : Session σ} (truthful : w.Truthful) {r' : Registry} {s' : σ}
include truthful

theorem Truthful.retells (retells : w.registry.Retells w.account r' s') : w.Carries ⟨r', s'⟩ := by
  have same : Session.account ⟨r', s'⟩ = w.account := retells.view
  refine ⟨⟨retells.kept, ?_, ?_⟩, ?_, ?_, retells.sameName⟩
  · rw [same]
    exact truthful.numbered
  · rw [same]
    exact retells.recounts
  · rw [same]
    exact .refl _
  · rw [same]
    exact fun _ _ => Nat.le_succ _

theorem Truthful.enrols {name : String} {model : Model} {answer : Except SchemaError Version}
    (enrols : w.registry.Enrols w.account name model (answer, r', s')) : w.Carries ⟨r', s'⟩ :=
  ⟨⟨enrols.kept, enrols.adds.still_numbered truthful.numbered, enrols.recounts⟩, enrols.advances,
    enrols.adds.size_le truthful.numbered, enrols.sameName⟩

theorem Truthful.written {request : PutRequest} {answer : Except DirectoryError Receipt} (kept : Kept s')
    (wrote : w.account.shelf.Wrote request answer (report s').shelf)
    (puts : w.account.Puts request answer (report s')) : w.Carries ⟨w.registry, s'⟩ := by
  have advances := puts.advances wrote truthful.numbered
  exact ⟨⟨kept, wrote.adds.still_numbered truthful.numbered,
      fun name h there => (truthful.recounts name h there).advances advances⟩,
    advances, wrote.adds.size_le truthful.numbered, rfl⟩

theorem Truthful.here : w.Carries w :=
  truthful.retells (Registry.retells_here truthful.kept rfl truthful.recounts)

end

end Session

section
variable {σ : Type} [Directory σ] [ReportingDirectory σ] {w : Session σ} (truthful : w.Truthful)
  (roomy : w.account.shelf.Roomy)
include truthful roomy

theorem Move.carries : ∀ move : Move, w.Carries (move.run w)
  | stay => truthful.here
  | load _ => truthful.retells (Registry.retells_load truthful.kept rfl truthful.recounts rfl)
  | ask _ => truthful.retells (Registry.retells_history truthful.kept rfl truthful.recounts rfl)
  | register now name model =>
    truthful.enrols (Registry.register_enrols now.property name model truthful.kept rfl truthful.numbered
      truthful.recounts (roomy _ _))
  | listSchemas _ _ =>
    have keeps := listSchemas_keeps truthful.kept rfl
    truthful.retells ⟨keeps.1, keeps.2, truthful.recounts, rfl⟩
  | listVersions _ _ _ =>
    have keeps := listVersions_keeps truthful.kept rfl
    truthful.retells ⟨keeps.1, keeps.2, truthful.recounts, rfl⟩
  | describe _ _ _ =>
    have keeps := describe_reports truthful.kept rfl
    truthful.retells ⟨keeps.1, keeps.2.1, truthful.recounts, rfl⟩
  | create now _ =>
    have created := create_reports now.property truthful.kept rfl
    truthful.written created.1 created.2.1.wrote created.2.2
  | update now _ =>
    have updated := update_reports now.property truthful.kept rfl
    truthful.written updated.1 (updated.2.1.wrote (truthful.numbered _ _) (roomy _ _)) updated.2.2

theorem Step.run_carries (step : Step) : w.Carries (step.run w).1 := by
  rw [step.run_move]
  exact Move.carries truthful roomy _

end

namespace Report

/-- Nothing is reported otherwise of a schema, unless it has got more versions. -/
def Settles (registry name : String) (before after : Report) : Prop :=
  (after.shelf registry name = before.shelf registry name ∧
      after.describe registry name = before.describe registry name) ∨
    (before.shelf registry name).size < (after.shelf registry name).size

theorem Settles.trans {registry name : String} {a b c : Report} (first : Settles registry name a b)
    (later : Settles registry name b c) : Settles registry name a c := by
  rcases first with ⟨shelf, describe⟩ | grown
  · unfold Settles
    rw [← shelf, ← describe]
    exact later
  · rcases later with ⟨shelf, -⟩ | further
    · exact .inr (by rw [shelf]; exact grown)
    · exact .inr (Nat.lt_trans grown further)

theorem Advances.settles {before after : Report} (advances : before.Advances after) (registry name : String) :
    Settles registry name before after := (advances.schema registry name).imp id And.left

theorem Settles.describe {registry name : String} {before after : Report} (settles : Settles registry name before after)
    (same : after.shelf registry name = before.shelf registry name) :
    after.describe registry name = before.describe registry name := by
  rcases settles with ⟨-, describe⟩ | grown
  · exact describe
  · rw [same] at grown
    exact absurd grown (Nat.lt_irrefl _)

end Report

namespace Session

section
variable {σ : Type} [Directory σ] [ReportingDirectory σ] {w : Session σ}

theorem run_settles {steps : List Step} (truthful : w.Truthful) (roomy : w.RoomyFor (·.account.shelf) steps) :
    (w.run steps).1.Truthful ∧ (w.run steps).1.registry.name = w.registry.name ∧
      ∀ registry name, Report.Settles registry name w.account (w.run steps).1.account := by
  induction steps generalizing w with
  | nil => exact ⟨truthful, rfl, fun _ _ => .inl ⟨rfl, rfl⟩⟩
  | cons step rest ih =>
    have carries := step.run_carries truthful roomy.1
    obtain ⟨truthful', sameName, settles⟩ := ih carries.truthful roomy.2
    exact ⟨truthful', sameName.trans carries.sameName, fun registry name =>
      (carries.advances.settles registry name).trans (settles registry name)⟩

end

/-- A session that begins with a registry that has not been loaded, on a directory some of whose calls fail. -/
def beginAmid (faults : List Fault) (registry : String) (start : Option String) (s : Store) :
    Session (Faulty Store) := ⟨Registry.new registry start, ⟨s, faults⟩⟩

section
variable {s : Store} (blank : s.Blank) (accepts : s.Accepts) {faults : List Fault}
  (honest : ∀ fault ∈ faults, fault.Honest) (registry : String) (start : Option String)
include blank

theorem shelf_beginAmid (registry' name : String) :
    (beginAmid faults registry start s).account.shelf registry' name = Table.empty := by
  change (report s).shelf registry' name = Table.empty
  rw [s.shelf_report]
  exact blank.shelf registry' name

include accepts honest

theorem truthful_beginAmid : (beginAmid faults registry start s).Truthful where
  kept := ⟨⟨blank.kept, accepts⟩, honest⟩
  numbered registry' name := by
    rw [shelf_beginAmid blank]
    exact .empty
  recounts := Registry.recounts_new registry start _

theorem roomyFor_beginAmid {steps : List Step} (few : steps.length < 18446744073709551615) :
    (beginAmid faults registry start s).RoomyFor (·.account.shelf) steps := by
  have sizes (registry' name : String) :
      ((beginAmid faults registry start s).account.shelf registry' name).size ≤ 0 := by
    rw [shelf_beginAmid blank]
    exact Nat.le_refl 0
  have grows (w : Session (Faulty Store)) (step : Step) (truthful : w.Truthful) (roomy : w.account.shelf.Roomy) :
      (step.run w).1.Truthful ∧ ∀ registry name,
        ((step.run w).1.account.shelf registry name).size ≤ (w.account.shelf registry name).size + 1 := by
    have carries := step.run_carries truthful roomy
    exact ⟨carries.truthful, carries.size_le⟩
  exact roomyFor_of_length Truthful grows (truthful_beginAmid blank accepts honest registry start) sizes
    (by rwa [Nat.zero_add])

/-- A registration that has been answered is answered the same when it is made again, by calls that do not fail
and while its schema has no further versions, and nothing that is stored changes. -/
theorem register_twice {before later : List Step} {now : Clock} {name : QualifiedName} {model : Model}
    (roomy : (beginAmid faults registry start s).RoomyFor (·.account.shelf)
      (before ++ .register now name model :: later))
    {v : Version} {r₁ : Registry} {s₁ : Faulty Store}
    (answered : ((beginAmid faults registry start s).run before).1.registry.register now.val name model
      ((beginAmid faults registry start s).run before).1.directory = (.ok v, r₁, s₁))
    {r₂ : Registry} {s₂ : Faulty Store} (went : (Session.run ⟨r₁, s₁⟩ later).1 = ⟨r₂, s₂⟩)
    (unwritten : s₂.behind.shelf registry name.text = s₁.behind.shelf registry name.text) (again : Clock) :
    ∃ r₃ s₃, r₂.register again.val name model s₂.behind = (.ok v, r₃, s₃) ∧ s₃.shelf = s₂.behind.shelf ∧
      ∀ registry' name' version, (Directory.describe registry' name' version s₃).1 =
        (Directory.describe registry' name' version s₂.behind).1 := by
  obtain ⟨truthful, sameName, -⟩ := run_settles (truthful_beginAmid blank accepts honest registry start) roomy.append.1
  obtain ⟨room, rest⟩ := roomy.append.2
  generalize ((beginAmid faults registry start s).run before).1 = w at *
  have enrols := Registry.register_enrols now.property name model truthful.kept rfl truthful.numbered
    truthful.recounts (room _ _)
  rw [answered] at enrols
  obtain ⟨d, described, same, checksum⟩ := enrols.answered v rfl
  have own : w.registry.name = registry := sameName
  rw [own] at described same
  have ran : (Step.run w (.register now name model)).1 = ⟨r₁, s₁⟩ := by
    simp only [Step.run, answered]
    rfl
  rw [ran] at rest
  obtain ⟨truthful₂, sameName₂, settles⟩ := run_settles (truthful.enrols enrols).truthful rest
  have roomy₂ := rest.last
  rw [went] at truthful₂ sameName₂ settles roomy₂
  have named : r₂.name = registry := sameName₂.trans (enrols.sameName.trans own)
  have still : (report s₂.behind).describe registry name.text none = .ok d := by
    have reported := (settles registry name.text).describe (by
      change (report s₂.behind).shelf registry name.text = (report s₁.behind).shelf registry name.text
      rw [Store.shelf_report, Store.shelf_report]
      exact unwritten)
    exact (congrFun reported none).trans described
  subst named
  obtain ⟨r₃, s₃, done, unchanged⟩ := Registry.register_again again.property name model truthful₂.kept.1
    truthful₂.recounts (Nat.lt_succ_of_lt (roomy₂ _ _)) still checksum
  refine ⟨r₃, s₃, by rw [same]; exact done, ?_, fun registry' name' version => ?_⟩
  · rw [← s₃.shelf_report, unchanged, Store.shelf_report]
  · rw [← Store.describe_report, unchanged, Store.describe_report]

end

def sampleMoment : Clock := ⟨⟨0, 0⟩, Instant.proper_epoch⟩

def sampleRetried : Model := (Model.named "Order").addField "id" (.scalar .int) true

def sampleFaults : List Fault := [⟨.create, 0, .io "no space left"⟩, ⟨.listSchemas, 0, .io "timed out"⟩]

def sampleFailed : List Step := [.register sampleMoment ⟨"shop", "Order"⟩ sampleRetried]

/-- A load that fails, a schema of others, and a load that succeeds and forgets what has been read. -/
def sampleLater : List Step :=
  [.load sampleMoment,
   .create sampleMoment ⟨"Shop", "shop.Item", "other", .jsonSchemaDraft4, none⟩,
   .load sampleMoment,
   .document "shop.Order" none]

def sampleSession : Session (Faulty Store) :=
  ((beginAmid sampleFaults "Shop" none (.memory (.empty 10))).run sampleFailed).1

def sampleAttempt : Except SchemaError Version × Registry × Faulty Store :=
  sampleSession.registry.register sampleMoment.val ⟨"shop", "Order"⟩ sampleRetried sampleSession.directory

theorem sampleAttempt_again : ∃ v r₁ s₁ r₂ s₂ r₃ s₃,
    sampleSession.registry.register sampleMoment.val ⟨"shop", "Order"⟩ sampleRetried sampleSession.directory =
        (.ok v, r₁, s₁) ∧
      (Session.run ⟨r₁, s₁⟩ sampleLater).1 = ⟨r₂, s₂⟩ ∧
      s₂.behind.shelf "Shop" "shop.Order" = s₁.behind.shelf "Shop" "shop.Order" ∧
      r₂.register sampleMoment.val ⟨"shop", "Order"⟩ sampleRetried s₂.behind = (.ok v, r₃, s₃) ∧
      s₃.shelf = s₂.behind.shelf := by
  have blank : (Store.memory (.empty 10)).Blank := rfl
  have honest : ∀ fault ∈ sampleFaults, fault.Honest := by simp [sampleFaults, Fault.Honest]
  have roomy : (beginAmid sampleFaults "Shop" none (.memory (.empty 10))).RoomyFor (·.account.shelf)
      (sampleFailed ++ .register sampleMoment ⟨"shop", "Order"⟩ sampleRetried :: sampleLater) :=
    roomyFor_beginAmid blank rfl honest "Shop" none (by decide)
  have succeeds : sampleAttempt.1.toOption.isSome = true := by decide +kernel
  have unwritten : (Session.run ⟨sampleAttempt.2.1, sampleAttempt.2.2⟩ sampleLater).1.directory.behind.shelf "Shop"
      "shop.Order" = sampleAttempt.2.2.behind.shelf "Shop" "shop.Order" := by decide +kernel
  obtain ⟨v, answer⟩ : ∃ v, sampleAttempt.1 = .ok v := by
    cases attempt : sampleAttempt.1 with
    | error e => simp [attempt, Except.toOption] at succeeds
    | ok v => exact ⟨v, rfl⟩
  have answered : sampleAttempt = (.ok v, sampleAttempt.2.1, sampleAttempt.2.2) := Prod.ext answer rfl
  obtain ⟨r₃, s₃, done, same, -⟩ := register_twice blank rfl honest "Shop" none roomy answered rfl unwritten sampleMoment
  exact ⟨v, _, _, _, _, r₃, s₃, answered, rfl, unwritten, done, same⟩

end Session

end Schemata
