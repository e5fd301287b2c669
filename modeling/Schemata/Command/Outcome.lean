import Schemata.Command.Arguments
import Schemata.Directory.Folders
import Schemata.Envelope
import Schemata.Json.Printer
import Schemata.Settings.Sources

/-!
What a command leaves behind: its output, the failure that it ends with if there is one, and the files. Also
the steps that commands share: reading their files, and opening the registry that the settings name.
-/
namespace Schemata.Command

inductive Failure where
  | misused
  | settings
  | reading (file : String)
  | parsing (file : String)
  | saving
  | envelope
  | directory (e : DirectoryError)
  | schema (e : SchemaError)

namespace Failure

def message : Failure → String
  | misused => "wrong arguments"
  | settings => "loading configuration: a settings file or value cannot be read"
  | reading file => "reading " ++ file ++ ": there is no such text file"
  | parsing file => "parsing " ++ file ++ ": not a document"
  | saving => "the settings cannot be written there"
  | envelope => "not an envelope"
  | directory e => e.message
  | schema e => e.message

def exitCode : Failure → UInt8
  | misused => 2
  | _ => 1

end Failure

structure Outcome where
  output : String
  failure : Option Failure

namespace Outcome

def done (output : String) : Outcome := ⟨output, none⟩

def failed (failure : Failure) : Outcome := ⟨"", some failure⟩

def exitCode (o : Outcome) : UInt8 :=
  match o.failure with
  | some failure => failure.exitCode
  | none => 0

end Outcome

/-- The outcome of a step on a registry. -/
def answer (finish : α → Outcome) : Except SchemaError α × Registry × Folders → Outcome × Folders
  | (.ok a, _, s) => (finish a, s)
  | (.error e, _, s) => (.failed (.schema e), s)

/-- The text of a file that a command is given. -/
def readText (here : FilePath) (file : String) (files : FileTree) : Except Failure String :=
  match files.textAt? here file with
  | some content => .ok content
  | none => .error (.reading file)

/-- The document in a file that a command is given. -/
def readJson (here : FilePath) (file : String) (files : FileTree) : Except Failure Json := do
  match Json.ofText? (← readText here file files) with
  | some v => return v
  | none => throw (.parsing file)

def readEnvelope (here : FilePath) (file : String) (files : FileTree) : Except Failure Envelope := do
  match Envelope.ofWritten? (.ofJson (← readJson here file files)) with
  | some e => return e
  | none => throw .envelope

/-- The model that the schema document in a file describes. -/
def readModel (here : FilePath) (file : String) (files : FileTree) : Except Failure Model := do
  match Registry.modelOf ⟨← readText here file files⟩ with
  | .ok m => return m
  | .error e => throw (.schema e)

/-- Runs on the registry that the settings name, loaded from the folders below the settings' path. That
folder is made if it is missing. -/
def withRegistry (now : Instant) (settings : Settings) (w : Workplace)
    (run : Registry → Folders → Outcome × Folders) : Outcome × Workplace :=
  match w.files.makeAt w.here settings.path with
  | (files, none) => (.failed (.directory (.io "the folder cannot be made")), { w with files })
  | (files, some root) =>
    let folders : Folders := ⟨files, root, settings.pageSize.toNat⟩
    match Registry.loaded now settings.registry settings.start folders with
    | (.error e, folders) => (.failed (.schema e), { w with files := folders.tree })
    | (.ok r, folders) =>
      let finished := run r folders
      (finished.1, { w with files := finished.2.tree })

end Schemata.Command
