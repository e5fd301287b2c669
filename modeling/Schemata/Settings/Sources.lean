import Schemata.Ini.Reader
import Schemata.Json5.Reader
import Schemata.Ron.Reader
import Schemata.Settings.Basic
import Schemata.Settings.Overlay
import Schemata.Text.Split
import Schemata.Toml.Reader
import Schemata.Yaml.Reader

/-!
Where settings come from: files at fixed places, a file of the user, a file named on the command line, and
environment variables, each laid over those before it.

Files that are not there are passed over, except the one that is named; a file that cannot be read as the
kind of document its name says is an error.
-/
namespace Schemata

/-- What a program finds around it: the files, the folder it works in, and the environment variables. -/
structure Workplace where
  files : FileTree
  here : FilePath
  environment : List (String × String)

namespace Settings

inductive FileKind where
  | toml
  | json
  | yaml
  | ini
  | ron
  | json5
deriving DecidableEq, Repr

namespace FileKind

def endings : FileKind → List String
  | toml => ["toml"]
  | json => ["json"]
  | yaml => ["yaml", "yml"]
  | ini => ["ini"]
  | ron => ["ron"]
  | json5 => ["json5"]

def all : List (String × FileKind) :=
  [toml, json, yaml, ini, ron, json5].flatMap fun kind => kind.endings.map fun ending => (ending, kind)

def ofName? (name : String) : Option FileKind :=
  match Text.splitLast? '.' name.toList with
  | some (_ :: _, ending) => all.lookup (String.ofList ending)
  | _ => none

def read? : FileKind → String → Option (List (String × Setting))
  | toml, s => Toml.read? s
  | json, s =>
    match Json.ofText? s with
    | some (.object members) => some (Setting.ofMembers members)
    | _ => none
  | yaml, s => Yaml.read? s
  | ini, s => Ini.read? s
  | ron, s => Ron.read? s
  | json5, s => Json5.read? s

end FileKind

/-- The files that a name can stand for besides the one of that very name: one with an ending added. -/
def candidates (w : Workplace) (name : String) : List (FilePath × FileKind) :=
  let route := FileTree.Route.ofText name
  let lead := if route.getLast? = some ".." then none else w.files.follow? w.here route
  match lead.map fun path => (path.dropLast, path.getLast?) with
  | some (folder, some last) =>
    FileKind.all.map fun (ending, kind) => (folder ++ [last ++ "." ++ ending], kind)
  | _ => []

def findFile? (w : Workplace) (name : String) : Option (String × FileKind) :=
  match w.files.fileAt? w.here name with
  | some content => do
    let kind ← (FileTree.Route.ofText name).getLast?.bind FileKind.ofName?
    match content with
    | .text s => some (s, kind)
    | .binary _ => none
  | none =>
    (candidates w name).findSome? fun (path, kind) =>
      match w.files.file? path with
      | some (.text s) => some (s, kind)
      | _ => none

def fileEntries? (w : Workplace) (required : Bool) (name : String) :
    Option (List (String × Setting)) :=
  match findFile? w name with
  | some (s, kind) => kind.read? s
  | none => if required then none else some []

def localFiles : List String :=
  ["event-schemas.toml", ".event-schemas.toml", "config/event-schemas.toml"]

/-- The settings file of the user: below `XDG_CONFIG_HOME` if that is a path from the top, else below
`.config` at home. -/
def userFile? (w : Workplace) : Option String :=
  let home := ((w.environment.lookup "HOME").filter (· ≠ "")).map fun home =>
    FileTree.Route.join home ".config"
  let base := ((w.environment.lookup "XDG_CONFIG_HOME").filter FileTree.Route.isAbsolute).or home
  base.map fun base => FileTree.Route.join base "event-schemas/event-schemas.toml"

def isThere (w : Workplace) (name : String) : Bool :=
  ((w.files.locate? w.here name).bind fun path => w.files.find? path).isSome

/-- A variable's value: a truth value or a number if it reads as one, else a text. -/
def ofVariable (s : String) : Setting :=
  let word := String.ofList (s.toList.map Char.toLower)
  let integer : Option Int := match s.toList with
    | '-' :: ds => if Text.isNumeral ds then some (-(Text.value ds : Int)) else none
    | cs => if Text.isNumeral (Text.dropPlus cs) then some (Text.value (Text.dropPlus cs)) else none
  if word = "true" then .boolean true
  else if word = "false" then .boolean false
  else
    match integer.filter fun n => -9223372036854775808 ≤ n && n < 9223372036854775808, Extended.ofText? s with
    | some n, _ => .integer n
    | none, some x => .real x
    | none, none => .text s

/-- The entry that a variable stands for: `EVENT_SCHEMAS__A__B` names `a.b`, in any case. -/
def variableEntry? : String × String → Option (String × Setting)
  | (name, value) =>
    (Text.dropLead? "event_schemas__".toList (name.toList.map Char.toLower)).map fun name =>
      ((String.ofList name).replace "__" ".", ofVariable value)

/-- All sources, the later ones stronger; `none` if one of them cannot be read. -/
def sources? (w : Workplace) (named : Option String) : Option (List (List (String × Setting))) := do
  let files ← (localFiles ++ ((userFile? w).filter (isThere w)).toList).mapM (fileEntries? w false)
  let named ← named.toList.mapM (fileEntries? w true)
  return files ++ named ++ [w.environment.filterMap variableEntry?]

def load? (w : Workplace) (named : Option String) : Option Settings := do
  let sources ← sources? w named
  ofSetting? (sources.foldl (fun under entries => Setting.overlaySource entries under) .empty)

end Settings

end Schemata
