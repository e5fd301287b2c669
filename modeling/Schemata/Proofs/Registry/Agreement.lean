import Schemata.Directory.Faults
import Schemata.Proofs.Registry.Reading

/-! Reading two directories that agree call by call: what a registry reads of them agrees as well. The calls on
the first one may also fail, if that is allowed; then nothing is said of the rest. -/
namespace Schemata

variable {σ τ : Type}

/-- The answers are the same and what is left is related, or the first one is a failure. -/
inductive Agrees (mayFail : Prop) (R : σ → τ → Prop) : Except ε α × σ → Except ε α × τ → Prop where
  | same {answer : Except ε α} {s : σ} {t : τ} : R s t → Agrees mayFail R (answer, s) (answer, t)
  | failed {e : ε} {s : σ} {b : Except ε α × τ} : mayFail → Agrees mayFail R (.error e, s) b

theorem Agrees.ok {mayFail : Prop} {R : σ → τ → Prop} {a : α} {s : σ} {b : Except ε α × τ}
    (agrees : Agrees mayFail R (.ok a, s) b) : ∃ t, b = (.ok a, t) ∧ R s t := by
  cases agrees with
  | same related => exact ⟨_, rfl, related⟩

/-- Calls that read agree on related states. -/
structure ReadsAs [Directory σ] [Directory τ] (mayFail : Prop) (R : σ → τ → Prop) : Prop where
  listSchemas (now : Instant) (request : ListRequest) {s : σ} {t : τ} : R s t →
    Agrees mayFail R (Directory.listSchemas now request s) (Directory.listSchemas now request t)
  listVersions (registry name : String) (token : Option String) {s : σ} {t : τ} : R s t →
    Agrees mayFail R (Directory.listVersions registry name token s) (Directory.listVersions registry name token t)
  describe (registry name : String) (version : Option String) {s : σ} {t : τ} : R s t →
    Agrees mayFail R (Directory.describe registry name version s) (Directory.describe registry name version t)

namespace ReadsAs

open Registry

variable [Directory σ] [Directory τ] {mayFail : Prop} {R : σ → τ → Prop} (readsAs : ReadsAs mayFail R)
include readsAs

theorem describeAll (registry name : String) (summaries : List VersionSummary) (h : History) {s : σ} {t : τ}
    (related : R s t) :
    Agrees mayFail R (describeAll registry name summaries h s) (describeAll registry name summaries h t) := by
  induction summaries generalizing h s t with
  | nil => exact .same related
  | cons summary rest ih =>
    have agrees := readsAs.describe registry name (some summary.version) related
    unfold Registry.describeAll
    generalize Directory.describe registry name (some summary.version) s = first at agrees ⊢
    generalize Directory.describe registry name (some summary.version) t = second at agrees ⊢
    cases agrees with
    | failed allowed => exact .failed allowed
    | @same answer _ _ related' =>
      cases answer with
      | error e => exact .same related'
      | ok d => exact ih _ related'

theorem drainVersions (registry name : String) (token : Option String) (h : History) {s : σ} {t : τ}
    (related : R s t) :
    Agrees mayFail R (drainVersions registry name token h s) (drainVersions registry name token h t) := by
  -- By induction on the versions that are left to be listed.
  induction left : Directory.versionsLeft registry name token s using Nat.strongRecOn
    generalizing token h s t with
  | ind n ih =>
    have agrees := readsAs.listVersions registry name token related
    rcases listed : Directory.listVersions registry name token s with ⟨e | page, s₁⟩ <;>
      rcases listed' : Directory.listVersions registry name token t with ⟨answer, t₁⟩ <;>
      rw [listed, listed'] at agrees
    · rw [drainVersions_error listed]
      cases agrees with
      | failed allowed => exact .failed allowed
      | same related' =>
        rw [drainVersions_error listed']
        exact .same related'
    · obtain ⟨_, ⟨⟩, related₁⟩ := agrees.ok
      have read := readsAs.describeAll registry name page.items h related₁
      rcases described : Registry.describeAll registry name page.items h s₁ with ⟨e | h₁, s₂⟩ <;>
        rcases described' : Registry.describeAll registry name page.items h t₁ with ⟨answer, t₂⟩ <;>
        rw [described, described'] at read
      · rw [drainVersions_unread listed described]
        cases read with
        | failed allowed => exact .failed allowed
        | same related' =>
          rw [drainVersions_unread listed' described']
          exact .same related'
      · obtain ⟨_, ⟨⟩, related₂⟩ := read.ok
        rw [drainVersions_page listed described, drainVersions_page listed' described']
        cases more : page.next with
        | none => exact .same related₂
        | some next =>
          have fewer := Nat.lt_of_le_of_lt (Nat.le_of_eq (versionsLeft_describeAll described))
            (Directory.versionsLeft_lt listed more)
          exact ih _ (left ▸ fewer) _ _ related₂ rfl

theorem readHistory (registry name : String) {s : σ} {t : τ} (related : R s t) :
    Agrees mayFail R (readHistory registry name s) (readHistory registry name t) :=
  readsAs.drainVersions registry name none _ related

theorem drainNames (now : Instant) (request : ListRequest) (names : Names) {s : σ} {t : τ} (related : R s t) :
    Agrees mayFail R (drainNames now request names s) (drainNames now request names t) := by
  -- By induction on the schemas that are left to be listed.
  induction left : Directory.schemasLeft request s using Nat.strongRecOn generalizing request names s t with
  | ind n ih =>
    have agrees := readsAs.listSchemas now request related
    rcases listed : Directory.listSchemas now request s with ⟨e | page, s₁⟩ <;>
      rcases listed' : Directory.listSchemas now request t with ⟨answer, t₁⟩ <;>
      rw [listed, listed'] at agrees
    · rw [drainNames_error listed]
      cases agrees with
      | failed allowed => exact .failed allowed
      | same related' =>
        rw [drainNames_error listed']
        exact .same related'
    · obtain ⟨_, ⟨⟩, related₁⟩ := agrees.ok
      rw [drainNames_page listed, drainNames_page listed']
      cases more : page.next with
      | none => exact .same related₁
      | some next => exact ih _ (left ▸ Directory.schemasLeft_lt listed more) _ _ related₁ rfl

end ReadsAs

namespace Faulty

theorem agrees_attempt (call : DirectoryCall) (act : σ → Except DirectoryError α × σ) {s : Faulty σ} {t : σ}
    (same : s.behind = t) : Agrees True (fun (s : Faulty σ) t => s.behind = t) (attempt call act s) (act t) := by
  subst same
  unfold attempt
  split
  · exact .failed trivial
  · exact .same rfl

theorem readsAs_behind [Directory σ] : ReadsAs True fun (s : Faulty σ) t => s.behind = t where
  listSchemas _ _ _ _ same := agrees_attempt _ _ same
  listVersions _ _ _ _ _ same := agrees_attempt _ _ same
  describe _ _ _ _ _ same := agrees_attempt _ _ same

end Faulty

end Schemata
