import Schemata.Proofs.Registry.Listing

/-! What is left of a read that has failed: nothing. The failures of calls are noted beside a directory, which
changes no answer. Whichever call of a read fails, no other call is made after it, its failure is what the read
answers, and the registry is as it was. -/
namespace Schemata

structure Watched (σ : Type) where
  behind : σ
  /-- What calls have failed with, oldest first. -/
  failures : List DirectoryError

namespace Watched

variable {σ : Type}

/-- The failure that an answer is, if it is one. -/
def failure : Except DirectoryError α → List DirectoryError
  | .error e => [e]
  | .ok _ => []

/-- Makes a call, and notes its failure. -/
def call (act : σ → Except DirectoryError α × σ) (s : Watched σ) : Except DirectoryError α × Watched σ :=
  ((act s.behind).1, ⟨(act s.behind).2, s.failures ++ failure (act s.behind).1⟩)

theorem of_call {act : σ → Except DirectoryError α × σ} {s s' : Watched σ} {answer : Except DirectoryError α}
    (h : call act s = (answer, s')) :
    act s.behind = (answer, s'.behind) ∧ s'.failures = s.failures ++ failure answer := by
  obtain ⟨rfl, rfl⟩ := Prod.mk.inj h
  exact ⟨rfl, rfl⟩

theorem clear_of_call {act : σ → Except DirectoryError α × σ} {s s' : Watched σ} {a : α}
    (h : call act s = (.ok a, s')) : s'.failures = s.failures := (of_call h).2.trans (List.append_nil _)

instance [Directory σ] : Directory (Watched σ) where
  listSchemas now request := call (Directory.listSchemas now request)
  listVersions registry name token := call (Directory.listVersions registry name token)
  describe registry name version := call (Directory.describe registry name version)
  create now request := call (Directory.create now request)
  update now request := call (Directory.update now request)
  schemasLeft request s := Directory.schemasLeft request s.behind
  versionsLeft registry name token s := Directory.versionsLeft registry name token s.behind
  schemasLeft_lt listed more := Directory.schemasLeft_lt (of_call listed).1 more
  versionsLeft_lt listed more := Directory.versionsLeft_lt (of_call listed).1 more
  versionsLeft_describe := Directory.versionsLeft_describe

variable [Directory σ]

/-- Noting changes no answer. -/
theorem readsAs_behind : ReadsAs False fun (s : Watched σ) t => s.behind = t where
  listSchemas _ _ _ _ same := by
    subst same
    exact .same rfl
  listVersions _ _ _ _ _ same := by
    subst same
    exact .same rfl
  describe _ _ _ _ _ same := by
    subst same
    exact .same rfl

omit [Directory σ] in
theorem behind_of_agrees {s' : Watched σ} {answer : Except ε α} {b : Except ε α × σ}
    (agrees : Agrees False (fun (s : Watched σ) t => s.behind = t) (answer, s') b) : b = (answer, s'.behind) := by
  cases agrees with
  | failed impossible => exact impossible.elim
  | same same => rw [same]

section
variable {s s' : Watched σ} {registry name : String}

theorem describeAll_failures {summaries : List VersionSummary} {h : History} {answer : Except DirectoryError History}
    (read : Registry.describeAll registry name summaries h s = (answer, s')) :
    s'.failures = s.failures ++ failure answer := by
  induction summaries generalizing h s with
  | nil =>
    cases read
    exact (List.append_nil _).symm
  | cons summary rest ih =>
    rcases described : Directory.describe registry name (some summary.version) s with ⟨e | d, s₁⟩ <;>
      simp only [Registry.describeAll, described] at read
    · cases read
      exact (of_call described).2
    · rw [ih read, clear_of_call described]

theorem drainVersions_failures {token : Option String} {h : History} {answer : Except DirectoryError History}
    (drains : Registry.DrainsVersions registry name token h s answer s') :
    s'.failures = s.failures ++ failure answer := by
  induction drains with
  | failed listed => exact (of_call listed).2
  | unread listed described => rw [describeAll_failures described, clear_of_call listed]
  | last listed described _ => rw [describeAll_failures described, clear_of_call listed]
  | more listed described _ _ ih =>
    rw [ih, describeAll_failures described, clear_of_call listed, failure, List.append_nil]

theorem drainNames_failures {now : Instant} {request : ListRequest} {names : Names}
    {answer : Except DirectoryError Names} (drains : Registry.DrainsNames now request names s answer s') :
    s'.failures = s.failures ++ failure answer := by
  induction drains with
  | failed listed => exact (of_call listed).2
  | last listed _ => rw [clear_of_call listed, failure, List.append_nil]
  | more listed _ _ ih => rw [ih, clear_of_call listed]

end

end Watched

theorem SchemaError.ofDirectory_cases (e : DirectoryError) :
    (∃ missing version, e = .notFound missing version ∧ ofDirectory e = .notFound missing version) ∨
      (∀ missing version, e ≠ .notFound missing version) ∧ ofDirectory e = .directory e := by
  cases e with
  | notFound missing version => exact .inl ⟨missing, version, rfl, rfl⟩
  | conflict _ | rejected _ | io _ | json _ => exact .inr ⟨nofun, rfl⟩

namespace Registry

variable {σ : Type} [Directory σ]

/-- What a read comes to on a directory whose failures are noted, beside what it comes to without the notes. The
answers are the same. If a call has failed, it is the only one, and the read has failed with it and has left the
registry as it was. -/
structure Spares (r : Registry) (s : Watched σ) (noted : Except SchemaError α × Registry × Watched σ)
    (plain : Except SchemaError α × Registry × σ) : Prop where
  same : plain = (noted.1, noted.2.1, noted.2.2.behind)
  spared : noted.2.2.failures = s.failures ∨
    ∃ e, noted.2.2.failures = s.failures ++ [e] ∧ noted.1 = .error (.ofDirectory e) ∧ noted.2.1 = r

omit [Directory σ] in
/-- What is made of an answer makes no calls. -/
theorem Spares.bind {r : Registry} {s : Watched σ} {noted : Except SchemaError α × Registry × Watched σ}
    {plain : Except SchemaError α × Registry × σ} (spares : r.Spares s noted plain) (f : α → Except SchemaError β) :
    r.Spares s (noted.1.bind f, noted.2) (plain.1.bind f, plain.2) where
  same := by rw [spares.same]
  spared := by
    rcases spares.spared with clear | ⟨e, added, failed, untouched⟩
    · exact .inl clear
    · exact .inr ⟨e, added, by rw [failed]; rfl, untouched⟩

section
variable (r : Registry) (s : Watched σ) (name : String) (version : Option String)

theorem spares_load (now : Instant) : r.Spares s (r.load now s) (r.load now s.behind) := by
  have plain := Watched.readsAs_behind.drainNames now ⟨r.name, r.start, none⟩ Table.empty (s := s) rfl
  unfold load
  rcases drained : drainNames now ⟨r.name, r.start, none⟩ Table.empty s with ⟨e | names, s'⟩
  · rw [drained] at plain
    rw [Watched.behind_of_agrees plain]
    exact ⟨rfl, .inr ⟨e, Watched.drainNames_failures (drains_of_drainNames drained), rfl, rfl⟩⟩
  · rw [drained] at plain
    rw [Watched.behind_of_agrees plain]
    exact ⟨rfl, .inl ((Watched.drainNames_failures (drains_of_drainNames drained)).trans (List.append_nil _))⟩

theorem load_of_clear (now : Instant) (clear : (r.load now s).2.2.failures = s.failures) :
    (r.load now s).1 = .ok () := by
  rcases loaded : r.load now s with ⟨answer, r', s'⟩
  rw [loaded] at clear
  cases loads_of_load loaded with
  | failed drained =>
    have noted := Watched.drainNames_failures (drains_of_drainNames drained)
    rw [show s'.failures = s.failures from clear] at noted
    exact absurd noted.symm (by simp [Watched.failure])
  | listed _ => rfl

theorem spares_history : r.Spares s (r.history name s) (r.history name s.behind) := by
  have plain := Watched.readsAs_behind.readHistory r.name name (s := s) rfl
  unfold history
  split
  · exact ⟨rfl, .inl rfl⟩
  · split
    · rcases read : readHistory r.name name s with ⟨e | h, s'⟩
      · rw [read] at plain
        rw [Watched.behind_of_agrees plain]
        exact ⟨rfl, .inr ⟨e, Watched.drainVersions_failures (drains_of_drainVersions read), rfl, rfl⟩⟩
      · rw [read] at plain
        rw [Watched.behind_of_agrees plain]
        exact ⟨rfl, .inl ((Watched.drainVersions_failures (drains_of_drainVersions read)).trans (List.append_nil _))⟩
    · exact ⟨rfl, .inl rfl⟩

end

/-- Whichever call of a read fails, the read answers that failure and the registry is as before: what is listed, the
histories that are kept and the versions of models. A failure to find something is answered as such, and any other as
one of the directory. A load fails only if a call does. After one that has not failed, exactly the schemas are listed
whose names start as wanted, and those of which a version is that of a model, in ascending order. -/
theorem failed_reads_leave_nothing (now : Instant) (name : String) (version : Option String) (r : Registry)
    (s : Watched (Faulty Store)) :
    (∀ e, (∃ missing version, e = .notFound missing version ∧
        SchemaError.ofDirectory e = .notFound missing version) ∨
      (∀ missing version, e ≠ .notFound missing version) ∧ SchemaError.ofDirectory e = .directory e) ∧
    r.Spares s (r.load now s) (r.load now s.behind) ∧
    r.Spares s (r.history name s) (r.history name s.behind) ∧
    r.Spares s (r.document name version s) (r.document name version s.behind) ∧
    r.Spares s (r.model name version s) (r.model name version s.behind) ∧
    ((r.load now s).2.2.failures = s.failures → (r.load now s).1 = .ok ()) ∧
    ∀ r' s', r.load now s = (.ok (), r', s') →
      r'.schemaNames.Pairwise (fun a b => Key.order a b = .lt) ∧
      ∀ known, known ∈ r'.schemaNames ↔
        known ∈ (LawfulDirectory.catalog s.behind.behind).names r.name ∧
          (∀ start, r.start = some start → start.toList <+: known.toList) ∨
        ∃ v ∈ r.models.values, v.name = known := by
  have history := r.spares_history s name
  have document : r.Spares s (r.document name version s) (r.document name version s.behind) := by
    rw [document_eq, document_eq]
    exact history.bind _
  have model : r.Spares s (r.model name version s) (r.model name version s.behind) := by
    rw [model_eq, model_eq]
    exact document.bind _
  refine ⟨SchemaError.ofDirectory_cases, r.spares_load s now, history, document, model, r.load_of_clear s now,
    fun r' s' loaded => ?_⟩
  have plain := (r.spares_load s now).same
  rw [loaded] at plain
  obtain ⟨sorted, lists⟩ := load_lists plain
  refine ⟨List.pairwise_map.mpr sorted, fun known => ?_⟩
  rw [lists, Store.wanted, List.mem_filter, ListRequest.wants_iff]

end Registry

end Schemata
