import Schemata.Proofs.Idempotence
import Schemata.Proofs.Registry.Retention

/-! How a session on a directory with failing calls evolves. Its registry agrees with what is stored at all
times, each move adds one version at most, and every history that is kept goes back to one that was read whole. -/
namespace Schemata

open ReportingDirectory

namespace Move

def answered? (w : Session (Faulty Store)) : Move → Option Version
  | register now name model => (w.registry.register now.val name model w.directory).1.toOption
  | _ => none

end Move

namespace Session

/-- What the registry holds agrees with what is reported and with what is on the shelves. -/
structure Consistent (w : Session (Faulty Store)) : Prop where
  truthful : w.Truthful
  coherent : w.registry.Coherent w.account.shelf

structure Evolves (w : Session (Faulty Store)) (move : Move) (w' : Session (Faulty Store)) : Prop where
  consistent : w'.Consistent
  adds : w.account.shelf.Adds move.contents w'.account.shelf
  retains : w.registry.Retains w.account.shelf (move.answered? w) w'.registry
  extended : ∀ v h, move.answered? w = some v → w.registry.histories.get? v.name = some h →
    w'.registry.histories.get? v.name = some (h.insert v).1
  sameName : w'.registry.name = w.registry.name
  listed : (∀ now, move ≠ .load now) → ∀ name, w.registry.listed.contains name = true →
    w'.registry.listed.contains name = true

variable {w : Session (Faulty Store)} (consistent : w.Consistent)
include consistent

theorem Consistent.reads {move : Move} {r' : Registry} {s' : Faulty Store}
    (retells : w.registry.Retells w.account r' s') (coherent : r'.Coherent w.account.shelf)
    (retains : w.registry.Retains w.account.shelf none r') (silent : move.answered? w = none)
    (listed : (∀ now, move ≠ .load now) → r'.listed = w.registry.listed) : w.Evolves move ⟨r', s'⟩ where
  consistent := ⟨(consistent.truthful.retells retells).truthful, by
    change r'.Coherent (report s').shelf
    rw [retells.view]
    exact coherent⟩
  adds := by
    change w.account.shelf.Adds _ (report s').shelf
    rw [retells.view]
    exact .nothing
  retains := silent ▸ retains
  extended v h answered := by
    rw [silent] at answered
    cases answered
  sameName := retells.sameName
  listed other name there := by
    change r'.listed.contains name = true
    rw [listed other]
    exact there

theorem Consistent.looks {move : Move} {s' : Faulty Store} (kept : Kept s' ∧ report s' = report w.directory)
    (silent : move.answered? w = none) : w.Evolves move ⟨w.registry, s'⟩ :=
  consistent.reads ⟨kept.1, kept.2, consistent.truthful.recounts, rfl⟩ consistent.coherent
    (Registry.retains_here _ _) silent fun _ => rfl

theorem Consistent.written {move : Move} {request : PutRequest} {answer : Except DirectoryError Receipt}
    {s' : Faulty Store} (kept : Kept s') (wrote : w.account.shelf.Wrote request answer (report s').shelf)
    (puts : w.account.Puts request answer (report s')) (contents : move.contents = [request.content])
    (silent : move.answered? w = none) : w.Evolves move ⟨w.registry, s'⟩ where
  consistent := ⟨(consistent.truthful.written kept wrote puts).truthful,
    consistent.coherent.extends (wrote.adds.extends consistent.truthful.numbered)⟩
  adds := contents ▸ wrote.adds
  retains := silent ▸ Registry.retains_here _ _
  extended v h answered := by
    rw [silent] at answered
    cases answered
  sameName := rfl
  listed _ _ there := there

theorem Consistent.load (now : Clock) : w.Evolves (.load now) ((Move.load now).run w) := by
  rcases loaded : w.registry.load now.val w.directory with ⟨answer, r', s'⟩
  rw [Move.run, loaded]
  have retells := Registry.retells_load consistent.truthful.kept rfl consistent.truthful.recounts loaded
  cases Registry.loads_of_load loaded with
  | failed _ =>
    exact consistent.reads retells consistent.coherent (Registry.retains_here _ _) rfl fun other => absurd rfl (other now)
  | listed _ =>
    refine consistent.reads retells (consistent.coherent.forget fun v member => ?_) (fun _ _ there => ?_) rfl
      fun other => absurd rfl (other now)
    · exact (Names.contains_addAll _ _ _).mpr (.inr (List.mem_map_of_mem member))
    · cases there

theorem Consistent.ask (roomy : w.account.shelf.Roomy) (name : String) :
    w.Evolves (.ask name) ((Move.ask name).run w) := by
  rcases asked : w.registry.history name w.directory with ⟨answer, r', s'⟩
  rw [Move.run, asked]
  have retells := Registry.retells_history consistent.truthful.kept rfl consistent.truthful.recounts asked
  cases Registry.asks_of_history asked with
  | read _ _ read =>
    have whole := Registry.readHistory_whole consistent.truthful.kept.1.1 (Nat.lt_succ_of_lt (roomy _ _)) read
    exact consistent.reads retells (consistent.coherent.keep whole)
      (Registry.retains_insert whole) rfl fun _ => rfl
  | _ => exact consistent.reads retells consistent.coherent (Registry.retains_here _ _) rfl fun _ => rfl

theorem Consistent.register (roomy : w.account.shelf.Roomy) (now : Clock) (name : QualifiedName) (model : Model) :
    w.Evolves (.register now name model) ((Move.register now name model).run w) := by
  have enrols := Registry.register_enrols now.property name model consistent.truthful.kept rfl
    consistent.truthful.numbered consistent.truthful.recounts (roomy _ _)
  have keeps := Registry.register_keeps now.property name model consistent.truthful.kept consistent.truthful.numbered
    consistent.truthful.recounts consistent.coherent (roomy _ _)
  refine ⟨⟨(consistent.truthful.enrols enrols).truthful, keeps.coherent⟩, enrols.adds, keeps.retains,
    fun v h answered cached => ?_, enrols.sameName, fun _ => keeps.listed⟩
  have done : (w.registry.register now.val name model w.directory).1 = .ok v := by
    simp only [Move.answered?] at answered
    cases result : (w.registry.register now.val name model w.directory).1 with
    | error e => simp [result, Except.toOption] at answered
    | ok v' => simpa [result, Except.toOption] using answered
  have named := (keeps.registered v done).named
  rw [named] at cached ⊢
  exact keeps.extended v h done cached

theorem Consistent.evolves (roomy : w.account.shelf.Roomy) : ∀ move : Move, w.Evolves move (move.run w)
  | .stay => consistent.looks ⟨consistent.truthful.kept, rfl⟩ rfl
  | .load now => consistent.load now
  | .ask name => consistent.ask roomy name
  | .register now name model => consistent.register roomy now name model
  | .listSchemas _ _ => consistent.looks (listSchemas_keeps consistent.truthful.kept rfl) rfl
  | .listVersions _ _ _ => consistent.looks (listVersions_keeps consistent.truthful.kept rfl) rfl
  | .describe _ _ _ =>
    have reports := describe_reports consistent.truthful.kept rfl
    consistent.looks ⟨reports.1, reports.2.1⟩ rfl
  | .create now _ =>
    have created := create_reports now.property consistent.truthful.kept rfl
    consistent.written created.1 created.2.1.wrote created.2.2 rfl rfl
  | .update now _ =>
    have updated := update_reports now.property consistent.truthful.kept rfl
    consistent.written updated.1 (updated.2.1.wrote (consistent.truthful.numbered _ _) (roomy _ _)) updated.2.2 rfl rfl

end Session

namespace Session

section
variable {σ : Type} [Directory σ]

/-- Something holds of each of some steps in the session in which it is made. -/
def Throughout (q : Session σ → Step → Prop) (w : Session σ) : List Step → Prop
  | [] => True
  | step :: rest => q w step ∧ (step.run w).1.Throughout q rest

end

theorem consistent_beginAmid {s : Store} (blank : s.Blank) (accepts : s.Accepts) {faults : List Fault}
    (honest : ∀ fault ∈ faults, fault.Honest) (registry : String) (start : Option String) :
    (beginAmid faults registry start s).Consistent :=
  ⟨truthful_beginAmid blank accepts honest registry start, Registry.coherent_new registry start _⟩

variable {w : Session (Faulty Store)}

theorem Consistent.step (consistent : w.Consistent) (roomy : w.account.shelf.Roomy) (step : Step) :
    w.Evolves (step.move w) (step.run w).1 := by
  rw [step.run_move]
  exact consistent.evolves roomy _

/-- What a session over some steps has stored was stored before or is one of the contents. -/
theorem Consistent.run {steps : List Step} (consistent : w.Consistent) (roomy : w.RoomyFor (·.account.shelf) steps) :
    (w.run steps).1.Consistent ∧ (w.run steps).1.registry.name = w.registry.name ∧
      ∀ registry name id content, ((w.run steps).1.account.shelf registry name).get? id = some content →
        (w.account.shelf registry name).get? id = some content ∨
          ∃ text ∈ steps.flatMap Step.contents, content = some text := by
  induction steps generalizing w with
  | nil => exact ⟨consistent, rfl, fun _ _ _ _ found => .inl found⟩
  | cons step rest ih =>
    have evolves := consistent.step roomy.1 step
    obtain ⟨consistent', sameName, origin⟩ := ih evolves.consistent roomy.2
    refine ⟨consistent', sameName.trans evolves.sameName, fun registry name id content found => ?_⟩
    rw [List.flatMap_cons]
    rcases origin registry name id content found with before | ⟨text, given, same⟩
    · rcases evolves.adds.origin before with start | ⟨text, given, same⟩
      · exact .inl start
      · exact .inr ⟨text, List.mem_append_left _ (step.contents_move w given), same⟩
    · exact .inr ⟨text, List.mem_append_right _ given, same⟩

/-- What is kept up by just those steps of which something else holds is kept up all the time if and only if that
holds of all steps. -/
theorem always_iff_throughout (invariant : Session (Faulty Store) → Prop) {p : Session (Faulty Store) → Prop}
    {q : Session (Faulty Store) → Step → Prop}
    (keeps : ∀ w (step : Step), w.Consistent → w.account.shelf.Roomy → invariant w → invariant (step.run w).1)
    (iff : ∀ w (step : Step), w.Consistent → w.account.shelf.Roomy → (step.run w).1.account.shelf.Roomy →
      invariant w → p w → (p (step.run w).1 ↔ q w step))
    {steps : List Step} (consistent : w.Consistent) (roomy : w.RoomyFor (·.account.shelf) steps)
    (holds : invariant w) (start : p w) : w.Always p steps ↔ w.Throughout q steps := by
  induction steps generalizing w with
  | nil => exact ⟨fun _ => trivial, fun _ => start⟩
  | cons step rest ih =>
    have next := iff w step consistent roomy.1 roomy.2.here holds start
    have consistent' := (consistent.step roomy.1 step).consistent
    have holds' := keeps w step consistent roomy.1 holds
    constructor
    · intro always
      have later : p (step.run w).1 := by
        cases rest with
        | nil => exact always.2
        | cons _ _ => exact always.2.1
      exact ⟨next.mp later, (ih consistent' roomy.2 holds' later).mp always.2⟩
    · intro throughout
      exact ⟨start, (ih consistent' roomy.2 holds' (next.mpr throughout.1)).mpr throughout.2⟩

end Session

end Schemata
