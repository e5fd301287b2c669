import Schemata.Proofs.Dispatch

/-! The log of a bus matches the receipts of the publisher that uses it alone: it has one envelope for each event that
was acknowledged, in their order and under their numbers, whatever failed in between. -/
namespace Schemata

structure Submission where
  source : String
  model : Model
  payload : Json
  resources : List String
  answer : Except SchemaError String

namespace Submission

def accepted (x : Submission) : Bool := x.answer.isOk

/-- The envelope is the event's, and is the one on the bus with that number. -/
structure Posted (p : Publisher) (x : Submission) (e : Envelope) (number : Nat) : Prop where
  receipt : x.answer = .ok ("event-" ++ String.ofList (Text.padded 8 number))
  id : e.id = some ("event-" ++ String.ofList (Text.padded 8 number))
  payload : x.model.bind x.payload = .ok e.payload
  source : e.source = x.source
  resources : e.resources = p.resources ++ x.resources
  bus : e.bus = some p.busName

end Submission

section
variable {σ : Type} [Directory σ]

def Task.submission? (p : Publisher) (o : Outlet σ) : Task → Option Submission
  | send now source model payload resources =>
    some ⟨source, model, payload, resources, (o.send p now source model payload resources).answer⟩
  | _ => none

def Outlet.submissions (p : Publisher) (o : Outlet σ) : List Task → List Submission
  | [] => []
  | task :: rest => (task.submission? p o).toList ++ (task.run p o).submissions p rest

theorem Bus.eventId_injective : Function.Injective eventId := by
  intro a b same
  have digits : Text.padded 8 a = Text.padded 8 b := String.ofList_injective (String.append_right_inj _ |>.mp same)
  rw [← Text.value_padded 8 a, digits, Text.value_padded]

namespace Publisher

variable {p : Publisher} {now : Instant} {source : String} {model : Model} {payload : Json} {resources : List String}
  {r r' : Registry} {s s' : σ}

theorem prepare_carries {e : Envelope} (prepared : p.prepare now source model payload resources r s = (.ok e, r', s')) :
    model.bind payload = .ok e.payload ∧ e.source = source ∧ e.resources = p.resources ++ resources ∧
      e.bus = some p.busName := by
  unfold prepare at prepared
  split at prepared
  · cases prepared
  · rename_i value bound
    split at prepared
    · cases prepared
    · cases prepared
      exact ⟨bound, rfl, rfl, rfl⟩

/-- What is acknowledged is the number of the envelope on the bus. -/
theorem send_receipt {bus bus' : Bus} {receipt : String}
    (sent : p.send now source model payload resources r s bus = (.ok receipt, r', s', bus')) :
    receipt = Bus.eventId (bus.published.length + 1) := by
  unfold send at sent
  split at sent
  · cases sent
  · cases refused : bus.refusal with
    | some reason => simp [Bus.publish, refused] at sent
    | none =>
      simp only [Bus.publish, refused, Prod.mk.injEq, Except.ok.injEq] at sent
      exact sent.1.symm

theorem send_error {bus bus' : Bus} {e : SchemaError}
    (sent : p.send now source model payload resources r s bus = (.error e, r', s', bus')) : bus' = bus := by
  unfold send at sent
  split at sent
  · cases sent
    rfl
  · cases refused : bus.refusal with
    | some reason =>
      simp only [Bus.publish, refused, Prod.mk.injEq] at sent
      exact sent.2.2.2.symm
    | none => simp [Bus.publish, refused] at sent

end Publisher

theorem Task.run_posts (p : Publisher) (o : Outlet σ) (task : Task) :
    (∃ x e, task.submission? p o = some x ∧ x.accepted = true ∧ x.Posted p e (o.bus.published.length + 1) ∧
      (task.run p o).bus.published = o.bus.published ++ [e]) ∨
    (∀ x, task.submission? p o = some x → x.accepted = false) ∧
      (task.run p o).bus.published = o.bus.published := by
  cases task with
  | send now source model payload resources =>
    rcases sent : p.send now.val source model payload resources o.session.registry o.session.directory o.bus with
      ⟨e | receipt, r', s', bus'⟩
    · refine .inr ⟨?_, ?_⟩
      · rintro x ⟨rfl⟩
        simp [Submission.accepted, Outlet.send, sent, Except.isOk, Except.toBool]
      · simp [run, Outlet.send, sent, Publisher.send_error sent]
    · obtain ⟨e, prepared, published⟩ := Publisher.send_ok sent
      obtain ⟨bound, source', resources', bus⟩ := Publisher.prepare_carries prepared
      have number := Publisher.send_receipt sent
      refine .inl ⟨_, { e with id := some receipt }, rfl, ?_,
        ⟨?_, congrArg some number, bound, source', resources', bus⟩, ?_⟩
      · simp [Submission.accepted, Outlet.send, sent, Except.isOk, Except.toBool]
      · simp [Outlet.send, sent, number, Bus.eventId]
      · simp [run, Outlet.send, sent, published]
  | _ =>
    refine .inr ⟨?_, rfl⟩
    rintro x ⟨⟩

namespace Outlet

variable (p : Publisher)

theorem run_append (o : Outlet σ) (before after : List Task) :
    o.run p (before ++ after) = (o.run p before).run p after := by
  induction before generalizing o with
  | nil => rfl
  | cons task rest ih => exact ih (task.run p o)

/-- The log grows by the envelopes of the events that are acknowledged, numbered from its length on. -/
theorem run_posts (o : Outlet σ) (tasks : List Task) :
    ∃ new, (o.run p tasks).bus.published = o.bus.published ++ new ∧
      List.Forall₂ (fun x numbered => x.Posted p numbered.1 numbered.2)
        ((o.submissions p tasks).filter (·.accepted)) (new.zipIdx (o.bus.published.length + 1)) := by
  induction tasks generalizing o with
  | nil => exact ⟨[], (List.append_nil _).symm, .nil⟩
  | cons task rest ih =>
    obtain ⟨new, grown, posted⟩ := ih (task.run p o)
    rw [run, submissions, List.filter_append, grown]
    rcases task.run_posts p o with ⟨x, e, submitted, accepted, here, added⟩ | ⟨refused, same⟩
    · refine ⟨e :: new, by rw [added, List.append_assoc]; rfl, ?_⟩
      rw [added, List.length_append] at posted
      simpa [submitted, accepted] using ⟨here, posted⟩
    · refine ⟨new, by rw [same], ?_⟩
      have nothing : (task.submission? p o).toList.filter (·.accepted) = [] := by
        simpa using refused
      rwa [nothing, ← same]

theorem nodup_ids {xs : List Submission} {log : List Envelope} {first : Nat}
    (posted : List.Forall₂ (fun x numbered => x.Posted p numbered.1 numbered.2) xs (log.zipIdx first)) :
    (log.map (·.id)).Nodup := by
  have ids : log.map (·.id) = (List.range' first log.length).map fun n => some (Bus.eventId n) := by
    induction log generalizing xs first with
    | nil => rfl
    | cons e rest ih =>
      rw [List.zipIdx_cons, List.forall₂_cons_right_iff] at posted
      obtain ⟨x, xs, here, later, rfl⟩ := posted
      rw [List.map_cons, List.length_cons, List.range'_succ, List.map_cons, ih later, here.id]
      rfl
  rw [ids]
  exact List.Nodup.map (fun a b same => Bus.eventId_injective (Option.some.inj same)) List.nodup_range'

/-- Over any tasks and any directory, whose calls may fail at any point, a bus that is used by one publisher alone has
the envelopes of just the events that were acknowledged, in their order: the k-th is numbered k, as its receipt is, and
carries the bound payload of the k-th acknowledged event, its source, and the standard resources followed by its own. So
no identifier is given twice; what stands on the bus stays there, and an event that fails adds nothing. -/
theorem log_matches_receipts (w : Session σ) (tasks : List Task) :
    let o : Outlet σ := ⟨w, .empty⟩
    let log := (o.run p tasks).bus.published
    List.Forall₂ (fun x numbered => x.Posted p numbered.1 numbered.2)
      ((o.submissions p tasks).filter (·.accepted)) (log.zipIdx 1) ∧
    (log.map (·.id)).Nodup ∧
    ∀ before task after, tasks = before ++ task :: after → (o.run p before).bus.published <+: log ∧
      ∀ x, task.submission? p (o.run p before) = some x → x.accepted = false →
        (task.run p (o.run p before)).bus.published = (o.run p before).bus.published := by
  intro o log
  obtain ⟨new, all, posted⟩ := run_posts p o tasks
  obtain rfl : log = new := all
  refine ⟨posted, nodup_ids p posted, ?_⟩
  rintro before task after rfl
  constructor
  · obtain ⟨more, grown, -⟩ := run_posts p (o.run p before) (task :: after)
    exact ⟨more, by rw [← grown, ← run_append]⟩
  · intro x submitted refused
    rcases task.run_posts p (o.run p before) with ⟨y, e, submitted', accepted, -⟩ | ⟨-, same⟩
    · rw [submitted] at submitted'
      cases submitted'
      rw [refused] at accepted
      cases accepted
    · exact same

end Outlet

end

/-- The directory refuses what the second event needs, so that the event is not acknowledged. -/
theorem Outlet.sampleTurns_log :
    let log := (sampleOutlet.run .standard sampleTurns).bus.published
    let before := sampleOutlet.run .standard (sampleTurns.take 1)
    log.map (·.id) = [some "event-00000001", some "event-00000002", some "event-00000003"] ∧
    (log.map (·.id)).Nodup ∧
    (∃ x, sampleTurns[1].submission? .standard before = some x ∧ x.accepted = false) ∧
    (sampleTurns[1].run .standard before).bus.published = before.bus.published := by
  intro log before
  have split : sampleTurns = sampleTurns.take 1 ++ sampleTurns[1] :: sampleTurns.drop 2 := rfl
  obtain ⟨-, nodup, quiet⟩ := log_matches_receipts .standard sampleOutlet.session sampleTurns
  obtain ⟨-, silent⟩ := quiet _ _ _ split
  obtain ⟨x, submitted, refused⟩ : ∃ x, sampleTurns[1].submission? .standard before = some x ∧ x.accepted = false :=
    ⟨_, rfl, by decide +kernel⟩
  exact ⟨by decide +kernel, nodup, ⟨x, submitted, refused⟩, silent x submitted refused⟩

end Schemata
