import Schemata.Proofs.Evolution
import Schemata.Proofs.Identity

/-! What a handle stands for. A registry answers a handle with the version that its model was last registered as,
and nothing but a registration that succeeds changes that answer; the document stored for it has the checksum of the
handle all the time. -/
namespace Schemata

open ReportingDirectory

/-- A registration that has succeeded: what was registered, under which name, and as which version. -/
structure Enrolment where
  model : Model
  name : QualifiedName
  version : Version

def Enrolment.handle (e : Enrolment) : Handle := e.model.handle

section
variable {σ : Type} [Directory σ]

def Move.enrolment? (w : Session σ) : Move → Option Enrolment
  | register now name model => (w.registry.register now.val name model w.directory).1.toOption.map (⟨model, name, ·⟩)
  | _ => none

namespace Session

/-- The registrations that succeed over some steps, oldest first. -/
def enrolments (w : Session σ) : List Step → List Enrolment
  | [] => []
  | step :: rest => ((step.move w).enrolment? w).toList ++ (step.run w).1.enrolments rest

end Session

/-- The last of some registrations under a handle. -/
def Enrolment.last? (h : Handle) (enrolments : List Enrolment) : Option Enrolment :=
  (enrolments.filter fun e => e.handle = h).getLast?

theorem Enrolment.last?_append (h : Handle) (first later : List Enrolment) :
    last? h (first ++ later) = (last? h later).or (last? h first) := by
  rw [last?, List.filter_append, List.getLast?_append, last?, last?]

theorem Enrolment.last?_eq_none {h : Handle} {enrolments : List Enrolment} :
    last? h enrolments = none ↔ ∀ e ∈ enrolments, e.handle ≠ h := by
  simp [last?]

theorem Enrolment.of_last? {h : Handle} {enrolments : List Enrolment} {e : Enrolment}
    (last : last? h enrolments = some e) : e ∈ enrolments ∧ e.handle = h := by
  have inside := List.mem_of_getLast? last
  simpa using List.mem_filter.mp inside

/-- What models are registered as changes by registrations that succeed, and by nothing else. -/
theorem Move.models_run (w : Session σ) (move : Move) : (move.run w).registry.models =
    match move.enrolment? w with
    | none => w.registry.models
    | some e => w.registry.models.insert e.handle e.version := by
  cases move with
  | load now =>
    rcases loaded : w.registry.load now.val w.directory with ⟨answer, r', s'⟩
    rw [run, loaded]
    cases Registry.loads_of_load loaded <;> rfl
  | ask name =>
    rcases asked : w.registry.history name w.directory with ⟨answer, r', s'⟩
    rw [run, asked]
    cases Registry.asks_of_history asked <;> rfl
  | register now name model =>
    obtain ⟨found, r', s', attempt⟩ := Registry.exists_attempt now.val name.text model w.registry w.directory
    have models : r'.models = w.registry.models := by
      rcases attempt.registry with rfl | ⟨_, _, _, _, _, _, _, rfl⟩ <;> rfl
    rw [run, enrolment?, attempt.register_eq]
    cases found with
    | error fault => exact models
    | ok v =>
      obtain ⟨kept, -, remembered⟩ := Registry.remember_eq name.text model.handle v r'
      rw [Registry.conclude, remembered]
      change r'.models.insert model.handle kept = w.registry.models.insert model.handle kept
      rw [models]
  | _ => rfl

theorem Registry.identityOf_congr {r r' : Registry} (same : r'.models = r.models) (h : Handle) :
    r'.identityOf h = r.identityOf h := by
  rw [identityOf, identityOf, same]

theorem Registry.identityOf_unregistered_iff {r : Registry} {h : Handle} :
    r.identityOf h = .error (.unregistered h) ↔ r.models.get? h = none := by
  unfold identityOf
  cases r.models.get? h with
  | none => simp
  | some v => cases made : v.identity <;> simp [made]

namespace Session

theorem get?_models_run (w : Session σ) (steps : List Step) (h : Handle) :
    (w.run steps).1.registry.models.get? h =
      ((Enrolment.last? h (w.enrolments steps)).map Enrolment.version).or (w.registry.models.get? h) := by
  -- By induction on the steps: what is inserted later counts.
  induction steps generalizing w with
  | nil => rfl
  | cons step rest ih =>
    have models := (step.move w).models_run w
    rw [← step.run_move] at models
    rw [run, enrolments, Enrolment.last?_append, ih (step.run w).1, models]
    cases (step.move w).enrolment? w with
    | none => simp [Enrolment.last?]
    | some e =>
      by_cases same : e.handle = h
      · subst same
        simp [Enrolment.last?]
      · simp [Enrolment.last?, same, Table.get?_insert_other (Ne.symm same)]

end Session

end

namespace Session

variable {w : Session (Faulty Store)}

theorem Consistent.enrolled (consistent : w.Consistent) (roomy : w.account.shelf.Roomy) {move : Move} {e : Enrolment}
    (succeeds : move.enrolment? w = some e) :
    e.version.registry = w.registry.name ∧ e.version.name = e.name.text := by
  cases move with
  | register now name model =>
    simp only [Move.enrolment?, Option.map_eq_some_iff] at succeeds
    obtain ⟨v, answered, rfl⟩ := succeeds
    have keeps := Registry.register_keeps now.property name model consistent.truthful.kept consistent.truthful.numbered
      consistent.truthful.recounts consistent.coherent (roomy _ _)
    have evolves := consistent.register roomy now name model
    rcases result : w.registry.register now.val name model w.directory with ⟨answer, r', s'⟩
    rw [result] at answered keeps
    cases answer with
    | error fault => cases answered
    | ok v' =>
      obtain rfl : v' = v := Option.some.inj answered
      have registered := keeps.registered v' rfl
      have sameName : r'.name = w.registry.name := by
        have same := evolves.sameName
        rwa [Move.run, result] at same
      exact ⟨registered.own.trans sameName, registered.named⟩
  | _ => cases succeeds

theorem Consistent.enrolments {steps : List Step} (consistent : w.Consistent)
    (roomy : w.RoomyFor (·.account.shelf) steps) {e : Enrolment} (succeeds : e ∈ w.enrolments steps) :
    e.version.registry = w.registry.name ∧ e.version.name = e.name.text := by
  induction steps generalizing w with
  | nil => cases succeeds
  | cons step rest ih =>
    rw [Session.enrolments, List.mem_append, Option.mem_toList] at succeeds
    rcases succeeds with now | later
    · exact consistent.enrolled roomy.1 now
    · have evolves := consistent.step roomy.1 step
      rw [← evolves.sameName]
      exact ih evolves.consistent roomy.2 later

/-- A version that a model is registered as is stored with the checksum of the handle, and makes an identity. -/
theorem Consistent.recalls (consistent : w.Consistent) (nonempty : w.registry.name ≠ "")
    (whole : '/' ∉ w.registry.name.toList) {h : Handle} {v : Version} (held : w.registry.models.get? h = some v)
    {name : QualifiedName} (named : v.name = name.text) :
    w.registry.identityOf h = .ok ⟨w.registry.name, name.text, v.id.text⟩ ∧
      ∃ text, w.directory.behind.content w.registry.name name.text v.id.text = some text ∧
        Checksum.ofText text = h.checksum := by
  have relies := consistent.coherent.models h v held
  have onShelf := relies.onShelf
  rw [Version.OnShelf, relies.own, named] at onShelf
  obtain ⟨n, number⟩ : ∃ n, v.id = .ofNat n := by
    have key : v.id ∈ (w.account.shelf w.registry.name name.text).keys :=
      List.mem_map.mpr ⟨_, Table.mem_of_get? onShelf, rfl⟩
    rw [consistent.truthful.numbered, List.mem_map] at key
    obtain ⟨k, -, same⟩ := key
    exact ⟨k + 1, same.symm⟩
  constructor
  · refine Registry.identityOf_eq_ok_iff.mpr ⟨v, held, ?_⟩
    rw [Version.identity, relies.own, named]
    refine Identity.make_eq_ok_iff.mpr ⟨rfl, ?_, whole, ?_⟩
    · rintro (none | none | none)
      · exact nonempty none
      · simp [QualifiedName.text] at none
      · rw [number] at none
        exact VersionId.text_ofNat_ne_empty n none
    · rw [number, VersionId.ofNat, String.toList_ofList]
      intro colon
      cases Text.decimal_digits n _ colon
  · refine ⟨v.document.text, ?_, relies.checksum⟩
    rw [Store.content_eq, Shelves.content, ← Store.shelf_report]
    change ((w.account.shelf w.registry.name name.text).get? v.id).join = _
    rw [onShelf]
    rfl

section
variable {s : Store} (blank : s.Blank) (accepts : s.Accepts) {faults : List Fault}
  (honest : ∀ fault ∈ faults, fault.Honest) {registry : String} (start : Option String)
include blank accepts honest

/-- After any steps, a handle is unregistered if no registration of it has succeeded. Otherwise it is answered with
the identity that the last one got, and what the directory has stored under that identity has the checksum of the
handle. A step in which no registration succeeds changes no answer. -/
theorem handle_recalls_last (nonempty : registry ≠ "") (whole : '/' ∉ registry.toList) (steps : List Step)
    (h : Handle) :
    let before := beginAmid faults registry start s
    let after := (before.run steps).1
    (after.registry.identityOf h = .error (.unregistered h) ↔ ∀ e ∈ before.enrolments steps, e.handle ≠ h) ∧
    (before.RoomyFor (·.account.shelf) steps → ∀ e, Enrolment.last? h (before.enrolments steps) = some e →
      after.registry.identityOf h = .ok ⟨registry, e.name.text, e.version.id.text⟩ ∧
      e.version.identity = .ok ⟨registry, e.name.text, e.version.id.text⟩ ∧
      ∃ text, after.directory.behind.content registry e.name.text e.version.id.text = some text ∧
        Checksum.ofText text = h.checksum) ∧
    ∀ step : Step, (step.move after).enrolment? after = none →
      (step.run after).1.registry.identityOf h = after.registry.identityOf h := by
  intro before after
  have found := before.get?_models_run steps h
  change after.registry.models.get? h = _ at found
  rw [show before.registry.models.get? h = none from rfl, Option.or_none] at found
  refine ⟨?_, fun roomy e last => ?_, fun step silent => ?_⟩
  · rw [Registry.identityOf_unregistered_iff, found, Option.map_eq_none_iff, Enrolment.last?_eq_none]
  · have consistent₀ : before.Consistent := consistent_beginAmid blank accepts honest registry start
    obtain ⟨consistent, sameName, -⟩ := consistent₀.run roomy
    obtain ⟨-, named⟩ := consistent₀.enrolments roomy (Enrolment.of_last? last).1
    have own : after.registry.name = registry := sameName
    rw [last, Option.map_some] at found
    obtain ⟨identified, stored⟩ := consistent.recalls (own ▸ nonempty) (own ▸ whole) found named
    obtain ⟨v, held, made⟩ := Registry.identityOf_eq_ok_iff.mp identified
    rw [found, Option.some.injEq] at held
    subst held
    rw [own] at identified stored made
    exact ⟨identified, made, stored⟩
  · apply Registry.identityOf_congr
    have models := (step.move after).models_run after
    rw [silent, ← step.run_move] at models
    exact models

end

/-- A model is registered under two names and fails to be under a third one. Others write, and the registry loads. -/
def sampleRenamed : List Step :=
  [.register sampleMoment ⟨"shop", "Order"⟩ (.named "Order"),
   .register sampleMoment ⟨"sales", "Order"⟩ (.named "Order"),
   .update sampleMoment ⟨"Shop", "sales.Order", "other", .jsonSchemaDraft4, none⟩,
   .register sampleMoment ⟨"stock", "Order"⟩ (.named "Order"),
   .load sampleMoment]

def sampleShort : Session (Faulty Store) :=
  beginAmid [⟨.create, 2, .io "no space left"⟩] "Shop" none (.memory (.empty 10))

theorem sampleRenamed_recalls : ∃ e,
    Enrolment.last? (Model.named "Order").handle (sampleShort.enrolments sampleRenamed) = some e ∧
    e.name = ⟨"sales", "Order"⟩ ∧
    (sampleShort.run sampleRenamed).1.registry.identityOf (Model.named "Order").handle =
      .ok ⟨"Shop", "sales.Order", "1"⟩ ∧
    ∃ text, (sampleShort.run sampleRenamed).1.directory.behind.content "Shop" "sales.Order" "1" = some text ∧
      Checksum.ofText text = (Model.named "Order").handle.checksum := by
  have blank : (Store.memory (.empty 10)).Blank := rfl
  have honest : ∀ fault ∈ [⟨.create, 2, .io "no space left"⟩], Fault.Honest fault := by simp [Fault.Honest]
  have nonempty : "Shop" ≠ "" := by decide
  have whole : '/' ∉ "Shop".toList := by decide
  have roomy : sampleShort.RoomyFor (·.account.shelf) sampleRenamed :=
    roomyFor_beginAmid blank rfl honest "Shop" none (by decide)
  have answered : (Enrolment.last? (Model.named "Order").handle (sampleShort.enrolments sampleRenamed)).map
      (fun e => (e.name, e.version.id.text)) = some (⟨"sales", "Order"⟩, "1") := by decide +kernel
  obtain ⟨e, last, same⟩ := Option.map_eq_some_iff.mp answered
  obtain ⟨name, version⟩ := Prod.mk.inj same
  obtain ⟨-, recalls, -⟩ := handle_recalls_last blank rfl honest none nonempty whole sampleRenamed
    (Model.named "Order").handle
  obtain ⟨identified, -, stored⟩ := recalls roomy e last
  rw [name, version] at identified stored
  exact ⟨e, last, name, identified, stored⟩

end Session

end Schemata
