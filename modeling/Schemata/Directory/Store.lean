import Schemata.Directory.Folders
import Schemata.Directory.Memory

/-!
A directory that is either in memory or in files.
-/
namespace Schemata

inductive Store where
  | memory (s : Memory)
  | folders (s : Folders)

namespace Store

/-- Makes a call on whichever directory there is. -/
def call (onMemory : Memory → α × Memory) (onFolders : Folders → α × Folders) : Store → α × Store
  | memory s => ((onMemory s).1, memory (onMemory s).2)
  | folders s => ((onFolders s).1, folders (onFolders s).2)

instance : Directory Store where
  listSchemas now request := call (Memory.listSchemas now request) (Folders.listSchemas now request)
  listVersions registry name token :=
    call (Memory.listVersions registry name token) (Folders.listVersions registry name token)
  describe registry name version :=
    call (Memory.describe registry name version) (Folders.describe registry name version)
  create now request := call (Memory.create now request) (Folders.create now request)
  update now request := call (Memory.update now request) (Folders.update now request)
  schemasLeft request
    | memory s => Memory.schemasLeft request s
    | folders s => Folders.schemasLeft request s
  versionsLeft registry name token
    | memory s => Memory.versionsLeft registry name token s
    | folders s => Folders.versionsLeft registry name token s
  schemasLeft_lt {_ _ s _ _ _} listed more := by
    cases s with
    | memory s =>
      obtain ⟨answer, rfl⟩ := Prod.mk.inj listed
      exact Memory.schemasLeft_lt (Prod.ext answer rfl) more
    | folders s =>
      obtain ⟨answer, rfl⟩ := Prod.mk.inj listed
      exact Folders.schemasLeft_lt (Prod.ext answer rfl) more
  versionsLeft_lt {_ _ _ s _ _ _} listed more := by
    cases s with
    | memory s =>
      obtain ⟨answer, rfl⟩ := Prod.mk.inj listed
      exact Memory.versionsLeft_lt (Prod.ext answer rfl) more
    | folders s =>
      obtain ⟨answer, rfl⟩ := Prod.mk.inj listed
      exact Folders.versionsLeft_lt (Prod.ext answer rfl) more
  versionsLeft_describe {_ _ _ _ _ _ s} := by cases s <;> rfl

end Store

end Schemata
