import Schemata.Proofs.Publishing
import Schemata.Proofs.Recall
import Schemata.Proofs.Registry.Journal

/-! Sending events does not pile up versions. A model is written to the directory at most once by all the events of it
that a publisher sends, and every event of it that is published names the same version, whatever fails on the way. -/
namespace Schemata

/-- The registry of a publisher with its directory, and the bus. -/
structure Outlet (σ : Type) where
  session : Session σ
  bus : Bus

inductive Task where
  | send (now : Clock) (source : String) (model : Model) (payload : Json) (resources : List String)
  | refuse (reason : Option String)
  | load (now : Clock)
  | history (name : String)
  | document (name : String) (version : Option String)
  | reflect (name : String) (version : Option String)
  | receive (defaultRegistry : String) (e : Envelope)

/-- What has come of an event of a model that was to be sent. -/
structure Dispatch (σ : Type) where
  handle : Handle
  before : Outlet σ
  after : Outlet σ
  answer : Except SchemaError String

def Dispatch.published (d : Dispatch σ) : List Envelope :=
  d.after.bus.published.drop d.before.bus.published.length

def Dispatch.writes (d : Dispatch (Journaled σ)) : List (PutRequest × Receipt) :=
  d.after.session.directory.writes.drop d.before.session.directory.writes.length

section
variable {σ : Type} [Directory σ]

namespace Outlet

def send (p : Publisher) (o : Outlet σ) (now : Clock) (source : String) (model : Model) (payload : Json)
    (resources : List String) : Dispatch σ :=
  let sent := p.send now.val source model payload resources o.session.registry o.session.directory o.bus
  ⟨model.handle, o, ⟨⟨sent.2.1, sent.2.2.1⟩, sent.2.2.2⟩, sent.1⟩

def step (o : Outlet σ) (step : Step) : Outlet σ := { o with session := (step.run o.session).1 }

end Outlet

namespace Task

def run (p : Publisher) (o : Outlet σ) : Task → Outlet σ
  | send now source model payload resources => (o.send p now source model payload resources).after
  | refuse reason => { o with bus := { o.bus with refusal := reason } }
  | load now => o.step (.load now)
  | history name => o.step (.history name)
  | document name version => o.step (.document name version)
  | reflect name version => o.step (.reflect name version)
  | receive defaultRegistry e => o.step (.receive defaultRegistry e)

def dispatch? (p : Publisher) (o : Outlet σ) : Task → Option (Dispatch σ)
  | send now source model payload resources => some (o.send p now source model payload resources)
  | _ => none

end Task

namespace Outlet

def run (p : Publisher) (o : Outlet σ) : List Task → Outlet σ
  | [] => o
  | task :: rest => (task.run p o).run p rest

/-- What has come of the events that were to be sent over some tasks, oldest first. -/
def dispatches (p : Publisher) (o : Outlet σ) : List Task → List (Dispatch σ)
  | [] => []
  | task :: rest => (task.dispatch? p o).toList ++ (task.run p o).dispatches p rest

end Outlet

def Session.behind (w : Session (Journaled σ)) : Session σ := ⟨w.registry, w.directory.behind⟩

def Outlet.behind (o : Outlet (Journaled σ)) : Outlet σ := ⟨o.session.behind, o.bus⟩

def Dispatch.behind (d : Dispatch (Journaled σ)) : Dispatch σ := ⟨d.handle, d.before.behind, d.after.behind, d.answer⟩

theorem Move.run_behind (w : Session (Journaled σ)) (move : Move) : (move.run w).behind = move.run w.behind := by
  cases move with
  | load now =>
    rcases loaded : w.registry.load now.val w.directory with ⟨answer, r', s'⟩
    rw [run, run, Session.behind, Session.behind, loaded, (Registry.load_behind loaded).1]
    rfl
  | ask name =>
    rcases asked : w.registry.history name w.directory with ⟨answer, r', s'⟩
    rw [run, run, Session.behind, Session.behind, asked, (Registry.history_behind asked).1]
    rfl
  | register now name model =>
    rcases registered : w.registry.register now.val name model w.directory with ⟨answer, r', s'⟩
    rw [run, run, Session.behind, Session.behind, registered, (Registry.register_behind registered).1]
    rfl
  | create now request =>
    simp only [run, Session.behind, Directory.create, Journaled.write]
    split <;> rename_i reached <;> rw [reached]
  | update now request =>
    simp only [run, Session.behind, Directory.update, Journaled.write]
    split <;> rename_i reached <;> rw [reached]
  | _ => rfl

theorem Step.run_behind (w : Session (Journaled σ)) (step : Step) : (step.run w).1.behind = (step.run w.behind).1 := by
  rw [step.run_move, step.run_move, Move.run_behind]
  cases step <;> rfl

namespace Publisher

variable {p : Publisher} {now : Instant} {source : String} {model : Model} {payload : Json} {resources : List String}
  {r r' : Registry} {s s' : Journaled σ}

theorem identify_behind {answer : Except SchemaError Identity}
    (identified : identify now source model r s = (answer, r', s')) :
    identify now source model r s.behind = (answer, r', s'.behind) := by
  unfold identify at identified ⊢
  split at identified
  · cases identified
    rfl
  · split at identified
    · cases identified
      rfl
    · rcases registered : r.register now _ model s with ⟨e | v, r₁, s₁⟩
      · rw [registered] at identified
        rw [(Registry.register_behind registered).1]
        cases identified
        rfl
      · rw [registered] at identified
        rw [(Registry.register_behind registered).1]
        dsimp only at identified ⊢
        split at identified <;> cases identified <;> rfl
  · cases identified
    rfl

theorem prepare_behind {answer : Except SchemaError Envelope}
    (prepared : p.prepare now source model payload resources r s = (answer, r', s')) :
    p.prepare now source model payload resources r s.behind = (answer, r', s'.behind) := by
  unfold prepare at prepared ⊢
  split at prepared
  · cases prepared
    rfl
  · rcases identified : identify now source model r s with ⟨e | id, r₁, s₁⟩
    all_goals
      rw [identified] at prepared
      rw [identify_behind identified]
      cases prepared
      rfl

end Publisher

theorem Outlet.send_behind (p : Publisher) (o : Outlet (Journaled σ)) (now : Clock) (source : String) (model : Model)
    (payload : Json) (resources : List String) :
    (o.send p now source model payload resources).behind = o.behind.send p now source model payload resources := by
  rcases prepared : p.prepare now.val source model payload resources o.session.registry o.session.directory with
    ⟨e | envelope, r', s'⟩
  · simp [send, Publisher.send, Outlet.behind, Session.behind, Dispatch.behind, prepared,
      Publisher.prepare_behind prepared]
  · rcases handed : o.bus.publish envelope with ⟨e | id, bus'⟩ <;>
    simp [send, Publisher.send, Outlet.behind, Session.behind, Dispatch.behind, prepared,
      Publisher.prepare_behind prepared, handed]

theorem Task.run_behind (p : Publisher) (o : Outlet (Journaled σ)) (task : Task) :
    (task.run p o).behind = task.run p o.behind ∧
      (task.dispatch? p o).map Dispatch.behind = task.dispatch? p o.behind := by
  have follows (step : Step) : (o.step step).behind = o.behind.step step := by
    rw [Outlet.step, Outlet.behind, step.run_behind]
    rfl
  cases task with
  | send now source model payload resources =>
    have sent := o.send_behind p now source model payload resources
    exact ⟨congrArg Dispatch.after sent, congrArg some sent⟩
  | refuse reason => exact ⟨rfl, rfl⟩
  | _ => exact ⟨follows _, rfl⟩

/-- The journal changes nothing. -/
theorem Outlet.run_behind (p : Publisher) (o : Outlet (Journaled σ)) (tasks : List Task) :
    (o.run p tasks).behind = o.behind.run p tasks ∧
      (o.dispatches p tasks).map Dispatch.behind = o.behind.dispatches p tasks := by
  induction tasks generalizing o with
  | nil => exact ⟨rfl, rfl⟩
  | cons task rest ih =>
    obtain ⟨after, dispatched⟩ := task.run_behind p o
    obtain ⟨last, later⟩ := ih (task.run p o)
    rw [after] at last later
    refine ⟨last, ?_⟩
    rw [dispatches, dispatches, List.map_append, later, ← dispatched]
    cases task.dispatch? p o <;> rfl

def Move.Quiet : Move → Prop
  | stay | load _ | ask _ => True
  | _ => False

theorem Move.Quiet.run {move : Move} (quiet : move.Quiet) (w : Session (Journaled σ)) :
    (move.run w).directory.writes = w.directory.writes ∧ (move.run w).registry.models = w.registry.models := by
  have models := move.models_run w
  cases move with
  | stay => exact ⟨rfl, rfl⟩
  | load now => exact ⟨(Registry.load_behind rfl).2, models⟩
  | ask name => exact ⟨(Registry.history_behind rfl).2, models⟩
  | _ => exact quiet.elim

omit [Directory σ] in
theorem Step.quiet_receiving (w : Session (Journaled σ)) (defaultRegistry : String) (e : Envelope) :
    (receiving w defaultRegistry e).Quiet := by
  unfold receiving
  split
  · trivial
  · split <;> trivial

omit [Directory σ] in
theorem Step.sending_cases (w : Session σ) (now : Clock) (source : String) (model : Model) (payload : Json) :
    sending w now source model payload = .stay ∨ w.registry.models.get? model.handle = none ∧
      ∃ name, sending w now source model payload = .register now name model := by
  unfold sending
  split
  · rename_i unregistered _
    unfold Registry.identityOf at unregistered
    cases held : w.registry.models.get? model.handle with
    | none => exact .inr ⟨rfl, _, rfl⟩
    | some v =>
      simp only [held] at unregistered
      split at unregistered <;> cases unregistered
  · exact .inl rfl

/-- Sending writes nothing and registers nothing, or it registers a model that has not been, with one write at most. -/
theorem Step.sending_enters (w : Session (Journaled σ)) (now : Clock) (source : String) (model : Model)
    (payload : Json) :
    let w' := (sending w now source model payload).run w
    (w'.directory.writes = w.directory.writes ∧ w'.registry.models = w.registry.models) ∨
      w.registry.models.get? model.handle = none ∧
        ∃ v new, w'.registry.models = w.registry.models.insert model.handle v ∧ new.length ≤ 1 ∧
          w'.directory.writes = w.directory.writes ++ new := by
  rcases sending_cases w now source model payload with stay | ⟨unregistered, name, registering⟩
  · rw [stay]
    exact .inl ⟨rfl, rfl⟩
  · rw [registering]
    have models := (Move.register now name model).models_run w
    rcases registered : w.registry.register now.val name model w.directory with ⟨answer, r', s'⟩
    obtain ⟨-, entered⟩ := Registry.register_behind registered
    simp only [Move.enrolment?, Move.run, registered, Session.of] at models ⊢
    cases answer with
    | error e =>
      refine .inl ⟨?_, models⟩
      rcases entered with same | ⟨⟨_, impossible⟩, -⟩
      · exact same
      · cases impossible
    | ok v =>
      refine .inr ⟨unregistered, v, ?_⟩
      rcases entered with same | ⟨-, entry, one⟩
      · exact ⟨[], models, Nat.zero_le 1, by simp [same]⟩
      · exact ⟨[entry], models, Nat.le_refl 1, one⟩

namespace Publisher

variable {p : Publisher} {now : Clock} {source : String} {model : Model} {payload : Json} {resources : List String}

theorem send_session (p : Publisher) (resources : List String) (w : Session σ) (bus : Bus) :
    let sent := p.send now.val source model payload resources w.registry w.directory bus
    Session.mk sent.2.1 sent.2.2.1 = (Step.sending w now source model payload).run w := by
  rw [← Step.prepare_move p now source model payload resources w]
  unfold send
  rcases p.prepare now.val source model payload resources w.registry w.directory with ⟨e | envelope, r', s'⟩
  · rfl
  · dsimp only
    rcases bus.publish envelope with ⟨e | id, bus'⟩ <;> rfl

theorem identify_ok {r r' : Registry} {s s' : σ} {id : Identity}
    (identified : identify now.val source model r s = (.ok id, r', s')) : r'.identityOf model.handle = .ok id := by
  unfold identify at identified
  split at identified
  · rename_i found
    cases identified
    exact found
  · split at identified
    · cases identified
    · rename_i name _
      have models := (Move.register now name model).models_run ⟨r, s⟩
      rcases registered : r.register now.val name model s with ⟨e | v, r₁, s₁⟩
      · rw [registered] at identified
        cases identified
      · rw [Move.run, Move.enrolment?, registered] at models
        change r₁.models = r.models.insert model.handle v at models
        rw [registered] at identified
        dsimp only at identified
        split at identified
        · cases identified
        · rename_i made
          cases identified
          exact Registry.identityOf_eq_ok_iff.mpr ⟨v, by simp [models], made⟩
  · cases identified

end Publisher

/-- An event of a model that was to be sent: what has been registered before stays as it is, the model is written at
most once and only if it was registered by that, and an envelope is published under the identity that the registry has
for the model. -/
structure Dispatch.Regular (d : Dispatch (Journaled σ)) : Prop where
  keeps : ∀ h v, d.before.session.registry.models.get? h = some v → d.after.session.registry.models.get? h = some v
  entered : d.after.session.directory.writes = d.before.session.directory.writes ++ d.writes
  once : d.writes.length ≤ 1
  enrols : d.writes ≠ [] → d.before.session.registry.models.get? d.handle = none ∧
    (d.after.session.registry.models.get? d.handle).isSome
  names : ∀ receipt, d.answer = .ok receipt → ∃ e id, d.published = [e] ∧ e.id = some receipt ∧
    d.after.session.registry.identityOf d.handle = .ok id ∧ e.correlation = id.correlation

namespace Outlet

variable (p : Publisher) (o : Outlet (Journaled σ)) (now : Clock) (source : String) (model : Model) (payload : Json)
  (resources : List String)

theorem send_names :
    let d := o.send p now source model payload resources
    ∀ receipt, d.answer = .ok receipt → ∃ e id, d.published = [e] ∧ e.id = some receipt ∧
      d.after.session.registry.identityOf model.handle = .ok id ∧ e.correlation = id.correlation := by
  intro d receipt answered
  rcases sent : p.send now.val source model payload resources o.session.registry o.session.directory o.bus with
    ⟨answer, r', s', bus'⟩
  simp only [d, send, sent, Dispatch.published] at answered ⊢
  rw [answered] at sent
  obtain ⟨e, prepared, published⟩ := Publisher.send_ok sent
  obtain ⟨id, identified, -, correlation, -⟩ := Publisher.prepare_ok prepared
  exact ⟨{ e with id := some receipt }, id, by rw [published, List.drop_left], rfl, Publisher.identify_ok identified,
    correlation⟩

theorem send_regular : (o.send p now source model payload resources).Regular := by
  have names := o.send_names p now source model payload resources
  have after : (o.send p now source model payload resources).after.session =
    (Step.sending o.session now source model payload).run o.session := p.send_session resources o.session o.bus
  have handle : (o.send p now source model payload resources).handle = model.handle := rfl
  have before : (o.send p now source model payload resources).before = o := rfl
  generalize o.send p now source model payload resources = d at names after handle before
  subst before
  rw [← handle] at names
  have enters := Step.sending_enters d.before.session now source model payload
  simp only [← after, ← handle] at enters
  rcases enters with ⟨same, models⟩ | ⟨unregistered, v, new, models, few, entered⟩
  · have writes : d.writes = [] := by simp [Dispatch.writes, same]
    refine ⟨fun h v held => by rwa [models], ?_, ?_, fun written => absurd writes written, names⟩ <;>
      simp [writes, same]
  · have writes : d.writes = new := by rw [Dispatch.writes, entered, List.drop_left]
    refine ⟨fun h v' held => ?_, by rw [writes, entered], by rwa [writes], fun _ => ⟨unregistered, ?_⟩, names⟩
    · have other : h ≠ d.handle := by
        rintro rfl
        rw [unregistered] at held
        cases held
      rwa [models, Table.get?_insert_other other]
    · simp [models]

end Outlet

/-- A task sends an event, or it writes nothing and registers nothing. -/
theorem Task.run_cases (p : Publisher) (o : Outlet (Journaled σ)) (task : Task) :
    (∃ d, task.dispatch? p o = some d ∧ d.Regular ∧ d.before = o ∧ d.after = task.run p o) ∨
      task.dispatch? p o = none ∧ (task.run p o).session.directory.writes = o.session.directory.writes ∧
        (task.run p o).session.registry.models = o.session.registry.models := by
  have follows (step : Step) (quiet : (step.move o.session).Quiet) :
      (o.step step).session.directory.writes = o.session.directory.writes ∧
        (o.step step).session.registry.models = o.session.registry.models := by
    rw [Outlet.step, step.run_move]
    exact quiet.run o.session
  cases task with
  | send now source model payload resources =>
    exact .inl ⟨_, rfl, o.send_regular p now source model payload resources, rfl, rfl⟩
  | refuse reason => exact .inr ⟨rfl, rfl, rfl⟩
  | receive defaultRegistry e =>
    exact .inr ⟨rfl, follows _ (Step.quiet_receiving o.session defaultRegistry e)⟩
  | _ => exact .inr ⟨rfl, follows _ trivial⟩

namespace Outlet

variable (p : Publisher)

theorem run_keeps {o : Outlet (Journaled σ)} {h : Handle} {v : Version}
    (held : o.session.registry.models.get? h = some v) (tasks : List Task) :
    (o.run p tasks).session.registry.models.get? h = some v := by
  induction tasks generalizing o with
  | nil => exact held
  | cons task rest ih =>
    apply ih
    rcases task.run_cases p o with ⟨d, -, regular, before, after⟩ | ⟨-, -, models⟩
    · rw [← after]
      exact regular.keeps h v (before ▸ held)
    · rwa [models]

theorem run_writes (o : Outlet (Journaled σ)) (tasks : List Task) :
    (o.run p tasks).session.directory.writes =
      o.session.directory.writes ++ (o.dispatches p tasks).flatMap Dispatch.writes := by
  induction tasks generalizing o with
  | nil => exact (List.append_nil _).symm
  | cons task rest ih =>
    rw [run, ih (task.run p o), dispatches, List.flatMap_append, ← List.append_assoc]
    congr 1
    rcases task.run_cases p o with ⟨d, dispatched, regular, before, after⟩ | ⟨silent, same, -⟩
    · rw [← after, regular.entered, before, dispatched]
      simp
    · rw [silent, same]
      simp

theorem mem_dispatches {o : Outlet (Journaled σ)} {task : Task} {rest : List Task} {d : Dispatch (Journaled σ)}
    (sent : d ∈ o.dispatches p (task :: rest)) :
    (d.Regular ∧ d.before = o ∧ d.after = task.run p o) ∨ d ∈ (task.run p o).dispatches p rest := by
  rw [dispatches, List.mem_append, Option.mem_toList] at sent
  apply sent.imp_left
  intro now
  rcases task.run_cases p o with ⟨d', dispatched, regular⟩ | ⟨silent, -⟩
  · obtain rfl : d' = d := Option.some.inj (dispatched.symm.trans now)
    exact regular
  · rw [silent] at now
    cases now

theorem held_writes {o : Outlet (Journaled σ)} {h : Handle} {v : Version}
    (held : o.session.registry.models.get? h = some v) {tasks : List Task} {d : Dispatch (Journaled σ)}
    (sent : d ∈ o.dispatches p tasks) (own : d.handle = h) : d.writes = [] := by
  induction tasks generalizing o with
  | nil => cases sent
  | cons task rest ih =>
    rcases mem_dispatches p sent with ⟨regular, rfl, -⟩ | later
    · by_contra written
      rw [← own, (regular.enrols written).1] at held
      cases held
    · exact ih (run_keeps p held [task]) later

/-- A model is written once at most: if it is written, it is registered from then on. -/
theorem writes_few (h : Handle) (o : Outlet (Journaled σ)) (tasks : List Task) :
    (((o.dispatches p tasks).filter (·.handle = h)).flatMap Dispatch.writes).length ≤ 1 := by
  induction tasks generalizing o with
  | nil => exact Nat.zero_le 1
  | cons task rest ih =>
    have few := ih (task.run p o)
    rw [dispatches, List.filter_append, List.flatMap_append]
    rcases task.run_cases p o with ⟨d, dispatched, regular, -, after⟩ | ⟨silent, -⟩
    · by_cases written : d.handle = h ∧ d.writes ≠ []
      · -- The model is registered from here on, so that the rest of the run does not write it.
        obtain ⟨own, written⟩ := written
        obtain ⟨v, held⟩ := Option.isSome_iff_exists.mp (regular.enrols written).2
        rw [own, after] at held
        have nothing : ((((task.run p o).dispatches p rest).filter (·.handle = h)).flatMap Dispatch.writes) = [] := by
          apply List.flatMap_eq_nil_iff.mpr
          intro d' sent
          rw [List.mem_filter, decide_eq_true_iff] at sent
          exact held_writes p held sent.1 sent.2
        simpa [nothing, dispatched, own] using regular.once
      · have nothing : (((task.dispatch? p o).toList.filter (·.handle = h)).flatMap Dispatch.writes) = [] := by
          by_cases own : d.handle = h
          · simpa [dispatched, own] using written
          · simp [dispatched, own]
        rwa [nothing, List.nil_append]
    · rwa [silent]

/-- An event that is sent stands on the bus under the identity that its model keeps. -/
theorem sends_name {o : Outlet (Journaled σ)} {tasks : List Task} {d : Dispatch (Journaled σ)}
    (sent : d ∈ o.dispatches p tasks) {receipt : String} (answered : d.answer = .ok receipt) :
    ∃ e id, d.published = [e] ∧ e.id = some receipt ∧
      (o.run p tasks).session.registry.identityOf d.handle = .ok id ∧ e.correlation = id.correlation := by
  induction tasks generalizing o with
  | nil => cases sent
  | cons task rest ih =>
    rcases mem_dispatches p sent with ⟨regular, -, after⟩ | later
    · obtain ⟨e, id, published, numbered, identified, correlation⟩ := regular.names receipt answered
      obtain ⟨v, held, made⟩ := Registry.identityOf_eq_ok_iff.mp identified
      rw [after] at held
      exact ⟨e, id, published, numbered,
        Registry.identityOf_eq_ok_iff.mpr ⟨v, run_keeps p held rest, made⟩, correlation⟩
    · exact ih later

/-- Over any tasks and any directory, whose calls may fail at any point, the writes that the directory answers are those
of the events that are sent. All the events of a model have one write at most together, and each of them that is sent
stands on the bus under the same correlation: that of the identity that the registry has for the model in the end. That
writes are counted changes nothing. -/
theorem sends_write_once (o : Outlet (Journaled σ)) (tasks : List Task) :
    ((o.run p tasks).behind = o.behind.run p tasks ∧
      (o.dispatches p tasks).map Dispatch.behind = o.behind.dispatches p tasks) ∧
    (o.run p tasks).session.directory.writes =
      o.session.directory.writes ++ (o.dispatches p tasks).flatMap Dispatch.writes ∧
    ∀ h, (((o.dispatches p tasks).filter (·.handle = h)).flatMap Dispatch.writes).length ≤ 1 ∧
      ∀ d ∈ o.dispatches p tasks, d.handle = h → ∀ receipt, d.answer = .ok receipt →
        ∃ e id, d.published = [e] ∧ e.id = some receipt ∧
          (o.run p tasks).session.registry.identityOf h = .ok id ∧ e.correlation = id.correlation := by
  refine ⟨o.run_behind p tasks, o.run_writes p tasks, fun h => ⟨writes_few p h o tasks, ?_⟩⟩
  rintro d sent rfl receipt answered
  exact sends_name p sent answered

end Outlet

end

/-- Two models of one title take turns, while the directory fails once and the bus refuses an event. -/
def sampleTurns : List Task :=
  let order := Model.named "Order"
  let noted := order.addField "note" (.scalar .string) false
  [.send Session.sampleMoment "shop" order (.object []) [],
   .send Session.sampleMoment "shop" noted (.object []) [],
   .refuse (some "throttled"),
   .send Session.sampleMoment "shop" noted (.object []) [],
   .load Session.sampleMoment,
   .refuse none,
   .send Session.sampleMoment "shop" order (.object []) [],
   .send Session.sampleMoment "shop" noted (.object []) []]

def sampleOutlet : Outlet (Journaled (Faulty Store)) :=
  ⟨⟨.new "Shop" none, ⟨⟨.memory (.empty 10), [⟨.update, 0, .io "no space left"⟩]⟩, []⟩⟩, .empty⟩

example : (sampleOutlet.dispatches .standard sampleTurns).map
    (fun d => (d.writes.length, d.published.map Envelope.correlation)) =
      [(1, ["Shop/shop.Order:1"]), (0, []), (1, []), (0, ["Shop/shop.Order:1"]), (0, ["Shop/shop.Order:2"])] := by
  decide +kernel

end Schemata
