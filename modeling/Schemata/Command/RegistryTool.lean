import Schemata.Command.Outcome
import Schemata.Model.Wire

/-!
The `schema-registry` tool: lists, shows and registers schemas in a directory of files, and shows or saves
the settings.
-/
namespace Schemata.Command.RegistryTool

/-- What is done with the registry. -/
inductive Task where
  | list
  | history (name : String)
  | document (name : String) (version : Option String)
  | register (file space : String)
  | model (name : String) (version : Option String)

inductive Purpose where
  | settings (output : Option String)
  | task (t : Task)

structure Call where
  settingsFile : Option String
  directory : Option String
  registry : Option String
  purpose : Purpose

def usage : String :=
  "Usage: schema-registry [-c FILE] [-d FOLDER] [-r REGISTRY] COMMAND\n" ++
  "Commands:\n" ++
  "  list\n" ++
  "  show NAME\n" ++
  "  get NAME [-v VERSION]\n" ++
  "  register FILE -n NAMESPACE\n" ++
  "  reflect NAME [-v VERSION]\n" ++
  "  config [-o FILE]\n"

def versionFlag : Flag := { letter := 'v', word := "version" }

def commands : List String := ["list", "show", "get", "register", "reflect", "config", "help"]

/-- The purpose that a command and what follows it state. -/
def Purpose.ofCommand (command : String) (rest : List String) : Except Refusal Purpose := do
  match command with
  | "list" =>
    let _ ← Arguments.ofList [] [] rest
    return .task .list
  | "show" =>
    let [name] := (← Arguments.ofList [] [.text] rest).operands | throw .misused
    return .task (.history name)
  | "get" =>
    let a ← Arguments.ofList [versionFlag] [.text] rest
    let [name] := a.operands | throw .misused
    return .task (.document name (a.value? 'v'))
  | "register" =>
    let a ← Arguments.ofList [{ letter := 'n', word := "namespace" }] [.path] rest
    let ([file], some space) := (a.operands, a.value? 'n') | throw .misused
    return .task (.register file space)
  | "reflect" =>
    let a ← Arguments.ofList [versionFlag] [.text] rest
    let [name] := a.operands | throw .misused
    return .task (.model name (a.value? 'v'))
  | "config" =>
    let a ← Arguments.ofList [{ letter := 'o', word := "output" }] [] rest
    return .settings (a.value? 'o')
  | "help" => throw (Arguments.helpOn commands rest)
  | _ => throw .misused

def Call.ofArguments (arguments : List String) : Except Refusal Call := do
  let (lead, command, rest) ← Arguments.upToCommand
    [{ letter := 'c', word := "config" }, { letter := 'd', word := "directory", kind := .path },
      { letter := 'r', word := "registry" }] arguments
  let purpose ← Purpose.ofCommand command rest
  let a ← lead
  return { settingsFile := a.value? 'c', directory := a.value? 'd', registry := a.value? 'r', purpose }

/-- The settings that hold in a workplace, with what the arguments say instead. -/
def Call.settings? (call : Call) (w : Workplace) : Option Settings :=
  (Settings.load? w call.settingsFile).map fun s =>
    { s with path := call.directory.getD s.path, registry := call.registry.getD s.registry }

def lines (ls : List String) : String := String.join (ls.map (· ++ "\n"))

def listing (r : Registry) : String :=
  match r.schemaNames with
  | [] => lines ["No schemas in registry " ++ r.name]
  | names => lines names

/-- One line for the schema and one for each version. -/
def historyText (h : History) : String :=
  lines (h.summary :: h.versions.values.map fun v =>
    "  " ++ v.id.text ++ " (" ++ v.format.name ++ ", " ++ v.createdAt.minuteText ++ ") " ++
      v.checksum.hex)

/-- What is said of a new version: its number, then its correlation. -/
def registered (v : Version) : Outcome :=
  let first := "✅ " ++ v.name ++ " version " ++ v.id.text
  match v.identity with
  | .ok id => .done (lines [first, "   " ++ id.correlation])
  | .error fault => ⟨lines [first], some (.schema (.identity fault))⟩

def register (now : Instant) (here : FilePath) (file space : String) (r : Registry) (s : Folders) :
    Outcome × Folders :=
  match readModel here file s.tree with
  | .error failure => (.failed failure, s)
  | .ok model =>
    match QualifiedName.make space model.name with
    | .error fault => (.failed (.schema (.qualifiedName fault)), s)
    | .ok name => answer registered (r.register now name model s)

def perform (now : Instant) (here : FilePath) (r : Registry) (s : Folders) : Task → Outcome × Folders
  | .list => (.done (listing r), s)
  | .history name => answer (fun h => .done (historyText h)) (r.history name s)
  | .document name version =>
    let shown (d : Document) : Outcome :=
      match d.value? with
      | some v => .done (lines [v.prettyText])
      | none => .failed (.schema .json)
    answer shown (r.document name version s)
  | .register file space => register now here file space r s
  | .model name version =>
    answer (fun m => .done (lines [m.toJson.prettyText])) (r.model name version s)

/-- Shows the settings, or writes them into a file. -/
def showSettings (s : Settings) (output : Option String) (w : Workplace) : Outcome × Workplace :=
  match s.document?, output with
  | none, _ => (.failed .saving, w)
  | some document, none => (.done document, w)
  | some document, some file =>
    match w.files.writeAt? w.here file document with
    | some files => (.done (lines ["✅ Saved configuration to " ++ file]), { w with files })
    | none => (.failed .saving, w)

def run (now : Instant) (arguments : List String) (w : Workplace) : Outcome × Workplace :=
  match Call.ofArguments arguments with
  | .error .help => (.done usage, w)
  | .error .misused => (.failed .misused, w)
  | .ok call =>
    match call.settings? w with
    | none => (.failed .settings, w)
    | some settings =>
      match call.purpose with
      | .settings output => showSettings settings output w
      | .task t => withRegistry now settings w fun r s => perform now w.here r s t

end Schemata.Command.RegistryTool
