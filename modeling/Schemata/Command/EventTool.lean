import Schemata.Bus
import Schemata.Command.Outcome

/-!
The `schema-events` tool: wraps payloads in envelopes, says which schema an envelope is about, binds its
payload, and publishes events to the standard output.
-/
namespace Schemata.Command.EventTool

inductive Task where
  | encode (name version source payload : String) (resources : List String)
  | consume (envelope : String)
  | send (schema source payload : String) (resources : List String)

inductive Purpose where
  | decode (envelope : String)
  | task (t : Task)

structure Call where
  settingsFile : Option String
  directory : Option String
  purpose : Purpose

def usage : String :=
  "Usage: schema-events [-c FILE] [-d FOLDER] COMMAND\n" ++
  "Commands:\n" ++
  "  encode NAME PAYLOAD -v VERSION -s SOURCE [-r RESOURCE]...\n" ++
  "  decode ENVELOPE\n" ++
  "  consume ENVELOPE\n" ++
  "  send SCHEMA PAYLOAD -s SOURCE [-r RESOURCE]...\n"

def sourceFlag : Flag := { letter := 's', word := "source" }

def resourceFlag : Flag := { letter := 'r', word := "resource", repeats := true }

def commands : List String := ["encode", "decode", "consume", "send", "help"]

def onePath (rest : List String) : Except Refusal String := do
  let [file] := (← Arguments.ofList [] [.path] rest).operands | throw .misused
  return file

def Purpose.ofCommand (command : String) (rest : List String) : Except Refusal Purpose := do
  match command with
  | "encode" =>
    let a ← Arguments.ofList [{ letter := 'v', word := "version" }, sourceFlag, resourceFlag]
      [.text, .path] rest
    let ([name, payload], some version, some source) := (a.operands, a.value? 'v', a.value? 's')
      | throw .misused
    return .task (.encode name version source payload (a.values 'r'))
  | "decode" => return .decode (← onePath rest)
  | "consume" => return .task (.consume (← onePath rest))
  | "send" =>
    let a ← Arguments.ofList [sourceFlag, resourceFlag] [.path, .path] rest
    let ([schema, payload], some source) := (a.operands, a.value? 's') | throw .misused
    return .task (.send schema source payload (a.values 'r'))
  | "help" => throw (Arguments.helpOn commands rest)
  | _ => throw .misused

def Call.ofArguments (arguments : List String) : Except Refusal Call := do
  let (lead, command, rest) ← Arguments.upToCommand
    [{ letter := 'c', word := "config" }, { letter := 'd', word := "directory", kind := .path }] arguments
  let purpose ← Purpose.ofCommand command rest
  let a ← lead
  return { settingsFile := a.value? 'c', directory := a.value? 'd', purpose }

/-- The settings that hold in a workplace, with what the arguments say instead. -/
def Call.settings? (call : Call) (w : Workplace) : Option Settings :=
  (Settings.load? w call.settingsFile).map fun s => { s with path := call.directory.getD s.path }

/-- The envelope for a payload of a stored version, which must be there before anything refers to it. -/
def encode (settings : Settings) (here : FilePath) (name version source payload : String)
    (resources : List String) (r : Registry) (s : Folders) : Outcome × Folders :=
  match Identity.make r.name name version with
  | .error fault => (.failed (.schema (.identity fault)), s)
  | .ok id =>
    match r.document name (some version) s with
    | (.error e, _, s) => (.failed (.schema e), s)
    | (.ok _, _, s) =>
      match readJson here payload s.tree with
      | .error failure => (.failed failure, s)
      | .ok payload =>
        let e := { Envelope.encode id (settings.resources ++ resources) source payload with
          bus := some settings.bus }
        (.done (e.toJson.prettyText ++ "\n"), s)

def consume (settings : Settings) (here : FilePath) (file : String) (r : Registry) (s : Folders) :
    Outcome × Folders :=
  match readEnvelope here file s.tree with
  | .error failure => (.failed failure, s)
  | .ok e =>
    let shown (found : Model × Json) : Outcome :=
      .done ("✅ " ++ found.1.name ++ " from " ++ e.source ++ "\n" ++ found.2.prettyText ++ "\n")
    answer shown (e.open? settings.registry r s)

/-- Publishes a payload, registering its model if that is new. -/
def send (now : Instant) (settings : Settings) (here : FilePath) (schema source payload : String)
    (resources : List String) (r : Registry) (s : Folders) : Outcome × Folders :=
  match readModel here schema s.tree, readJson here payload s.tree with
  | .error failure, _ => (.failed failure, s)
  | .ok _, .error failure => (.failed failure, s)
  | .ok model, .ok payload =>
    answer (fun e => .done (e.toJson.text ++ "\n"))
      (settings.publisher.prepare now source model payload resources r s)

def perform (now : Instant) (settings : Settings) (here : FilePath) (r : Registry) (s : Folders) :
    Task → Outcome × Folders
  | .encode name version source payload resources =>
    encode settings here name version source payload resources r s
  | .consume envelope => consume settings here envelope r s
  | .send schema source payload resources =>
    send now settings here schema source payload resources r s

/-- Says which version an envelope is about; no directory is needed for that. -/
def decode (settings : Settings) (file : String) (w : Workplace) : Outcome :=
  match readEnvelope w.here file w.files with
  | .error failure => .failed failure
  | .ok e =>
    match e.identity settings.registry with
    | .error e => .failed (.schema e)
    | .ok id => .done ("registry: " ++ id.registry ++ "\nschema:   " ++ id.schema ++
        "\nversion:  " ++ id.version ++ "\n")

def run (now : Instant) (arguments : List String) (w : Workplace) : Outcome × Workplace :=
  match Call.ofArguments arguments with
  | .error .help => (.done usage, w)
  | .error .misused => (.failed .misused, w)
  | .ok call =>
    match call.settings? w with
    | none => (.failed .settings, w)
    | some settings =>
      match call.purpose with
      | .decode envelope => (decode settings envelope w, w)
      | .task t => withRegistry now settings w fun r s => perform now settings w.here r s t

end Schemata.Command.EventTool
