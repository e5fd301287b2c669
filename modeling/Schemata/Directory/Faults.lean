import Schemata.Directory.Basic

/-!
A directory whose calls can be made to fail. A fault lets some calls of one kind pass and takes the place
of the next one, which then does not reach the directory behind.
-/
namespace Schemata

inductive DirectoryCall where
  | listSchemas
  | listVersions
  | describe
  | create
  | update
deriving DecidableEq, Repr

structure Fault where
  call : DirectoryCall
  /-- How many calls pass before the one that fails. -/
  skip : Nat
  error : DirectoryError
deriving DecidableEq, Repr

structure Faulty (σ : Type) where
  behind : σ
  /-- Faults still to come; of those for one call only the oldest counts. -/
  faults : List Fault

namespace Faulty

/-- The failure of a call, if it is to fail, and the faults that remain. -/
def strike (call : DirectoryCall) : List Fault → Option DirectoryError × List Fault
  | [] => (none, [])
  | fault :: rest =>
    if fault.call = call then
      if fault.skip = 0 then (some fault.error, rest)
      else (none, { fault with skip := fault.skip - 1 } :: rest)
    else
      let later := strike call rest
      (later.1, fault :: later.2)

/-- Makes a call unless a fault takes its place. -/
def attempt (call : DirectoryCall) (act : σ → Except DirectoryError α × σ) (s : Faulty σ) :
    Except DirectoryError α × Faulty σ :=
  match strike call s.faults with
  | (some e, faults) => (.error e, { s with faults })
  | (none, faults) => ((act s.behind).1, ⟨(act s.behind).2, faults⟩)

theorem attempt_ok {call : DirectoryCall} {act : σ → Except DirectoryError α × σ} {s s' : Faulty σ}
    {a : α} (h : attempt call act s = (.ok a, s')) : act s.behind = (.ok a, s'.behind) := by
  unfold attempt at h
  split at h
  · simp at h
  · obtain ⟨answer, rfl⟩ := Prod.mk.inj h
    exact Prod.ext answer rfl

instance [Directory σ] : Directory (Faulty σ) where
  listSchemas now request := attempt .listSchemas (Directory.listSchemas now request)
  listVersions registry name token :=
    attempt .listVersions (Directory.listVersions registry name token)
  describe registry name version := attempt .describe (Directory.describe registry name version)
  create now request := attempt .create (Directory.create now request)
  update now request := attempt .update (Directory.update now request)
  schemasLeft request s := Directory.schemasLeft request s.behind
  versionsLeft registry name token s := Directory.versionsLeft registry name token s.behind
  schemasLeft_lt listed more := Directory.schemasLeft_lt (attempt_ok listed) more
  versionsLeft_lt listed more := Directory.versionsLeft_lt (attempt_ok listed) more
  versionsLeft_describe := by
    intro registry name registry' name' token version s
    unfold attempt
    split
    · rfl
    · exact Directory.versionsLeft_describe

end Faulty

end Schemata
