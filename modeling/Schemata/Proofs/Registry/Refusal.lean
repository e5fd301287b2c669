import Schemata.Directory.Store
import Schemata.Proofs.Registry.Agreement

/-! What a registration that has failed leaves behind. It may have read the history of its schema before, and
the registry keeps it. That changes no answer if the schema is listed, since the history would be read in the
same way when it is asked for; if the schema is not listed, its history is answered where it would be absent. -/
namespace Schemata

/-- A directory apart from the counts of its calls and from whether it takes writes. -/
def Store.held : Store → Store
  | .memory s => .memory { s with calls := ⟨0, 0, 0, 0, 0⟩, refusal := none }
  | .folders s => .folders s

theorem Store.of_held_eq {s t : Store} (same : s.held = t.held) :
    s = t ∨ ∃ m calls refusal, s = .memory m ∧ t = .memory { m with calls, refusal } := by
  cases s with
  | memory s =>
    cases t with
    | memory t =>
      obtain ⟨registries, pageSize, calls, refusal⟩ := s
      cases same
      exact .inr ⟨_, t.calls, t.refusal, rfl, rfl⟩
    | folders t => cases same
  | folders s =>
    cases t with
    | memory t => cases same
    | folders t => exact .inl same

theorem Store.readsAs_held (held : Store) : ReadsAs False fun s t : Store => s.held = held ∧ t.held = held where
  listSchemas _ _ s t same := by
    rcases of_held_eq (same.1.trans same.2.symm) with rfl | ⟨m, calls, refusal, rfl, rfl⟩
    · cases s <;> exact .same same
    · exact .same same
  listVersions _ _ _ s t same := by
    rcases of_held_eq (same.1.trans same.2.symm) with rfl | ⟨m, calls, refusal, rfl, rfl⟩
    · cases s <;> exact .same same
    · exact .same same
  describe _ _ _ s t same := by
    rcases of_held_eq (same.1.trans same.2.symm) with rfl | ⟨m, calls, refusal, rfl, rfl⟩
    · cases s <;> exact .same same
    · exact .same same

theorem Agrees.alike {held : Store} {a b : Except ε α × Store}
    (agrees : Agrees False (fun s t => s.held = held ∧ t.held = held) a b) :
    ∃ answer s t, a = (answer, s) ∧ b = (answer, t) ∧ s.held = held ∧ t.held = held := by
  cases agrees with
  | same related => exact ⟨_, _, _, rfl, rfl, related⟩
  | failed impossible => exact impossible.elim

theorem Faulty.held_describe (registry name : String) (version : Option String) (s : Faulty Store) :
    (Directory.describe registry name version s).2.behind.held = s.behind.held := by
  change (attempt .describe (Directory.describe registry name version) s).2.behind.held = s.behind.held
  unfold attempt
  split
  · rfl
  · cases s.behind <;> rfl

namespace Registry

inductive Query where
  | load (now : Instant)
  | names
  | history (name : String)
  | document (name : String) (version : Option String)
  | model (name : String) (version : Option String)
  | identity (handle : Handle)

inductive Answer where
  | loaded (answer : Except SchemaError Unit)
  | names (names : List String)
  | history (answer : Except SchemaError History)
  | document (answer : Except SchemaError Document)
  | model (answer : Except SchemaError Model)
  | identity (answer : Except SchemaError Identity)

section
variable {σ : Type} [Directory σ]

def ask (r : Registry) (s : σ) : Query → Answer × Registry × σ
  | .load now => ((r.load now s).1 |> .loaded, (r.load now s).2)
  | .names => (.names r.schemaNames, r, s)
  | .history name => (.history (r.history name s).1, (r.history name s).2)
  | .document name version => (.document (r.document name version s).1, (r.document name version s).2)
  | .model name version => (.model (r.model name version s).1, (r.model name version s).2)
  | .identity handle => (.identity (r.identityOf handle), r, s)

def answers (r : Registry) (s : σ) : List Query → List Answer
  | [] => []
  | query :: rest => (r.ask s query).1 :: (r.ask s query).2.1.answers (r.ask s query).2.2 rest

end

/-- The histories are those of the registry, and further ones of listed schemas, as they are read anyway. -/
def Warmed (r : Registry) (held : Store) (histories : Table String History) : Prop :=
  ∀ name, histories.get? name = r.histories.get? name ∨
    r.histories.get? name = none ∧ r.listed.contains name = true ∧ ∃ h, histories.get? name = some h ∧
      ∀ s : Store, s.held = held → ∃ s', readHistory r.name name s = (.ok h, s') ∧ s'.held = held

/-- One answer of two registries, the second of which keeps more histories. -/
inductive Alike (held : Store) : α × Registry × Store → α × Registry × Store → Prop where
  | intro {a : α} {r : Registry} {histories : Table String History} {s t : Store} :
    r.Warmed held histories → s.held = held → t.held = held →
    Alike held (a, r, s) (a, { r with histories := histories }, t)

theorem Alike.map {held : Store} {a b : α × Registry × Store} (alike : Alike held a b) (f : α → β) :
    Alike held (f a.1, a.2) (f b.1, b.2) := by
  cases alike with
  | intro warmed here there => exact .intro warmed here there

section
variable {held : Store} {r : Registry} {histories : Table String History} {s t : Store}
  (warmed : r.Warmed held histories)
include warmed

theorem Warmed.insert (name : String) (h : History) :
    ({ r with histories := r.histories.insert name h } : Registry).Warmed held (histories.insert name h) := by
  intro other
  by_cases same : other = name
  · subst same
    exact .inl ((Table.get?_insert_same _ _ _).trans (Table.get?_insert_same _ _ _).symm)
  · simp only [Table.get?_insert_other same]
    exact warmed other

variable (here : s.held = held) (there : t.held = held)
include here there

theorem Warmed.history (name : String) :
    Alike held (r.history name s) (({ r with histories := histories } : Registry).history name t) := by
  unfold Registry.history
  rcases warmed name with same | ⟨absent, listed, h, kept, reads⟩
  · dsimp only
    rw [same]
    cases r.histories.get? name with
    | some h => exact .intro warmed here there
    | none =>
      by_cases listed : r.listed.contains name = true
      · obtain ⟨_ | h, s', t', read, read', here', there'⟩ :=
          ((Store.readsAs_held held).readHistory r.name name ⟨here, there⟩).alike
        · simp only [if_pos listed, read, read']
          exact .intro warmed here' there'
        · simp only [if_pos listed, read, read']
          exact .intro (warmed.insert name h) here' there'
      · simp only [if_neg listed]
        exact .intro warmed here there
  · obtain ⟨s', read, here'⟩ := reads s here
    simp only [absent, kept, if_pos listed, read]
    refine @Alike.intro held _ _ { r with histories := r.histories.insert name h } histories _ _ ?_ here' there
    intro other
    by_cases same : other = name
    · subst same
      exact .inl (kept.trans (Table.get?_insert_same _ _ _).symm)
    · simp only [Table.get?_insert_other same]
      exact warmed other

theorem Warmed.document (name : String) (version : Option String) :
    Alike held (r.document name version s) (({ r with histories := histories } : Registry).document name version t) := by
  have asked := warmed.history here there name
  unfold Registry.document
  generalize r.history name s = a at asked ⊢
  generalize ({ r with histories := histories } : Registry).history name t = b at asked ⊢
  cases asked with
  | @intro answer _ _ _ _ warmed' here' there' =>
    cases answer with
    | error e => exact .intro warmed' here' there'
    | ok h =>
      dsimp only
      split <;> exact .intro warmed' here' there'

theorem Warmed.model (name : String) (version : Option String) :
    Alike held (r.model name version s) (({ r with histories := histories } : Registry).model name version t) := by
  have asked := warmed.document here there name version
  unfold Registry.model
  generalize r.document name version s = a at asked ⊢
  generalize ({ r with histories := histories } : Registry).document name version t = b at asked ⊢
  cases asked with
  | @intro answer _ _ _ _ warmed' here' there' => cases answer <;> exact .intro warmed' here' there'

theorem Warmed.load (now : Instant) :
    Alike held (r.load now s) (({ r with histories := histories } : Registry).load now t) := by
  unfold Registry.load
  obtain ⟨_ | names, s', t', drained, drained', here', there'⟩ :=
    ((Store.readsAs_held held).drainNames now ⟨r.name, r.start, none⟩ Table.empty ⟨here, there⟩).alike
  · simp only [drained, drained']
    exact .intro warmed here' there'
  · simp only [drained, drained']
    exact @Alike.intro held _ _ { r with listed := _, histories := Table.empty } Table.empty _ _
      (fun _ => .inl rfl) here' there'

theorem Warmed.ask (query : Query) :
    Alike held (r.ask s query) (({ r with histories := histories } : Registry).ask t query) := by
  cases query with
  | load now => exact (warmed.load here there now).map _
  | names => exact .intro warmed here there
  | history name => exact (warmed.history here there name).map _
  | document name version => exact (warmed.document here there name version).map _
  | model name version => exact (warmed.model here there name version).map _
  | identity handle => exact .intro warmed here there

end

theorem Warmed.answers {held : Store} {r : Registry} {histories : Table String History} {s t : Store}
    (warmed : r.Warmed held histories) (here : s.held = held) (there : t.held = held) (queries : List Query) :
    ({ r with histories := histories } : Registry).answers t queries = r.answers s queries := by
  induction queries generalizing r histories s t with
  | nil => rfl
  | cons query rest ih =>
    have asked := warmed.ask here there query
    unfold Registry.answers
    generalize r.ask s query = a at asked ⊢
    generalize ({ r with histories := histories } : Registry).ask t query = b at asked ⊢
    cases asked with
    | intro warmed' here' there' => rw [ih warmed' here' there']

section
variable {now : Instant} {name : QualifiedName} {model : Model} {r r' : Registry} {s s' : Faulty Store}
  {e : SchemaError}

/-- A history that has been read through failing calls is read again from all that holds the same. -/
theorem reads_of_read {registry name name' : String} {version : Option String} {h : History}
    {answer : Except DirectoryError Described} {s₁ s₂ : Faulty Store}
    (described : Directory.describe registry name' version s = (answer, s₁))
    (read : readHistory registry name s₁ = (.ok h, s₂)) {t : Store} (here : t.held = s.behind.held) :
    ∃ t', readHistory registry name t = (.ok h, t') ∧ t'.held = s.behind.held := by
  have still : s₁.behind.held = s.behind.held := by
    rw [← s.held_describe registry name' version, described]
  have passed := Faulty.readsAs_behind.readHistory registry name (s := s₁) rfl
  rw [read] at passed
  obtain ⟨u, read', -⟩ := passed.ok
  obtain ⟨answer, u', t', again, read'', -, there⟩ :=
    ((Store.readsAs_held s.behind.held).readHistory registry name ⟨still, here⟩).alike
  rw [read'] at again
  cases again
  exact ⟨t', read'', there⟩

/-- A failed registration keeps the registry as it was, but for the history that it has read before. -/
theorem register_failed (failed : r.register now name model s = (.error e, r', s')) :
    r' = r ∨ ∃ h, r.histories.get? name.text = none ∧ r' = { r with histories := r.histories.insert name.text h } ∧
      ∀ t : Store, t.held = s.behind.held →
        ∃ t', readHistory r.name name.text t = (.ok h, t') ∧ t'.held = s.behind.held := by
  obtain ⟨fault | v, r₁, s₁, attempt⟩ := exists_attempt now name.text model r s
  · have registered := attempt.register_eq
    rw [failed] at registered
    cases registered
    rcases attempt.registry with same | ⟨answer, h, s₁, s₂, absent, described, read, kept⟩
    · exact .inl same
    · refine .inr ⟨h, ?_, kept, fun t here => reads_of_read described read here⟩
      simpa [Table.contains] using absent
  · obtain ⟨kept, -, remembered⟩ := remember_eq name.text model.handle v r₁
    have registered := attempt.register_eq
    rw [failed, conclude, remembered] at registered
    cases registered

/-- After a failed registration everything is answered as if it had not been made, on a directory that holds the
same, if and only if the registration kept no history or its schema was listed before. -/
theorem failed_registration_unseen_iff (failed : r.register now name model s = (.error e, r', s')) {t : Store}
    (unchanged : t.held = s.behind.held) : (∀ queries, r'.answers t queries = r.answers t queries) ↔
      r' = r ∨ r.listed.contains name.text = true := by
  rcases register_failed failed with rfl | ⟨h, absent, rfl, reads⟩
  · exact ⟨fun _ => .inl rfl, fun _ _ => rfl⟩
  · constructor
    · intro same
      by_contra neither
      have unlisted : ¬ r.listed.contains name.text = true := fun listed => neither (.inr listed)
      have first := congrArg List.head? (same [.history name.text])
      simp only [answers, ask, history, List.head?_cons, Option.some.injEq, Answer.history.injEq,
        Table.get?_insert_same, absent, if_neg unlisted] at first
      cases first
    · rintro (same | listed) queries
      · rw [same]
      · refine Warmed.answers ?_ unchanged unchanged queries
        intro other
        by_cases schema : other = name.text
        · subst schema
          exact .inr ⟨absent, listed, h, Table.get?_insert_same _ _ _, reads⟩
        · exact .inl (Table.get?_insert_other schema _ _)

end

def sampleClosed : Store :=
  .memory { (Memory.empty 10).insertVersion ⟨0, 0⟩ "Shop" "shop.Order" "1" "\x7b\x7d" with refusal := some "closed" }

def sampleUnlisted : Registry := new "Shop" none

def sampleListed : Registry := (sampleUnlisted.load ⟨0, 0⟩ sampleClosed).2.1

/-- An attempt at the schema of others. -/
def sampleRefused (r : Registry) : Except SchemaError Version × Registry × Faulty Store :=
  r.register ⟨0, 0⟩ ⟨"shop", "Order"⟩ (.named "Order") ⟨sampleClosed, []⟩

theorem sampleRefused_eq {r : Registry} (fails : (sampleRefused r).1.toOption = none) :
    ∃ e, sampleRefused r = (.error e, (sampleRefused r).2.1, (sampleRefused r).2.2) := by
  cases answer : (sampleRefused r).1 with
  | ok v => simp [answer, Except.toOption] at fails
  | error e => exact ⟨e, Prod.ext answer rfl⟩

theorem sampleListed_unseen : ∃ e r' s', sampleRefused sampleListed = (.error e, r', s') ∧ r' ≠ sampleListed ∧
    ∀ queries, r'.answers sampleClosed queries = sampleListed.answers sampleClosed queries := by
  obtain ⟨e, failed⟩ := sampleRefused_eq (show (sampleRefused sampleListed).1.toOption = none by decide +kernel)
  have kept : (sampleRefused sampleListed).2.1 ≠ sampleListed := by decide +kernel
  have listed : sampleListed.listed.contains "shop.Order" = true := by decide +kernel
  exact ⟨e, _, _, failed, kept, (failed_registration_unseen_iff failed rfl).mpr (.inr listed)⟩

/-- A schema that has not been listed is answered after the attempt, and is absent without it. -/
theorem sampleUnlisted_seen : ∃ e r' s', sampleRefused sampleUnlisted = (.error e, r', s') ∧
    r'.answers sampleClosed [.history "shop.Order"] ≠ sampleUnlisted.answers sampleClosed [.history "shop.Order"] := by
  obtain ⟨e, failed⟩ := sampleRefused_eq (show (sampleRefused sampleUnlisted).1.toOption = none by decide +kernel)
  refine ⟨e, _, _, failed, fun same => ?_⟩
  have appears : ((sampleRefused sampleUnlisted).2.1.history "shop.Order" sampleClosed).1.toOption.isSome = true := by
    decide +kernel
  have absent : (sampleUnlisted.history "shop.Order" sampleClosed).1.toOption.isSome = false := by decide +kernel
  simp only [answers, ask, List.cons.injEq, Answer.history.injEq, and_true] at same
  rw [same, absent] at appears
  cases appears

end Registry

end Schemata
