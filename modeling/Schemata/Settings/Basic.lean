import Schemata.Bus
import Schemata.FileTree.Route
import Schemata.Settings.Value
import Schemata.Toml.Printer

/-!
Settings: which registry is used, where its directory is, and how events are published. Each setting has a
default, and the settings can be written as a TOML document.
-/
namespace Schemata

structure Settings where
  registry : String
  /-- Only schemas whose names start with this are loaded. -/
  start : Option String
  /-- The root of the directory, as a written path. -/
  path : String
  pageSize : UInt64
  bus : String
  resources : List String
deriving DecidableEq, Repr

namespace Settings

def standard : Settings where
  registry := "discovered-schemas"
  start := none
  path := "./schemas"
  pageSize := 100
  bus := Publisher.defaultBus
  resources := Publisher.standardResources

/-- A section gives its values by their keys, or as a list in the order of the keys. -/
def section? (keys : List String) : Setting → Option (List (String × Setting))
  | .table entries => some entries.entries
  | .list items => some (keys.zip items)
  | _ => none

def defaulted (key : String) (default : α) (read : Setting → Option α)
    (entries : List (String × Setting)) : Option α :=
  match entries.lookup key with
  | none => some default
  | some v => read v

def optionalText? : Setting → Option (Option String)
  | .nothing => some none
  | v => v.toText?.map some

def sectionOf (key : String) (keys : List String) (v : Setting) :
    Option (List (String × Setting)) :=
  match v.get? key with
  | none => some []
  | some v => section? keys v

/-- The settings that a value gives; what it does not say is as in the standard settings. -/
def ofSetting? (v : Setting) : Option Settings := do
  let registry ← sectionOf "registry" ["name", "prefix"] v
  let directory ← sectionOf "directory" ["path", "page_size"] v
  let events ← sectionOf "events" ["bus_name", "standard_resources"] v
  return {
    registry := ← defaulted "name" standard.registry Setting.toText? registry
    start := ← defaulted "prefix" none optionalText? registry
    path := ← defaulted "path" standard.path Setting.toText? directory
    pageSize := ← defaulted "page_size" standard.pageSize Setting.toWord? directory
    bus := ← defaulted "bus_name" standard.bus Setting.toText? events
    resources := ← defaulted "standard_resources" standard.resources Setting.toTexts? events }

def toJson (s : Settings) : Json :=
  .object [
    ("registry", .object (("name", .string s.registry) :: Json.optional "prefix" s.start)),
    ("directory", .object [("path", .string s.path), ("page_size", .ofWord s.pageSize)]),
    ("events", .object [("bus_name", .string s.bus),
      ("standard_resources", .array (s.resources.map .string))])]

def line (key : String) (value : List Char) : List Char := key.toList ++ " = ".toList ++ value ++ ['\n']

/-- The settings as a document, unless the page size is beyond the whole numbers of the format. -/
def document? (s : Settings) : Option String :=
  if s.pageSize.toNat < 9223372036854775808 then
    some (String.ofList (
      "[registry]\n".toList ++ line "name" (Toml.quote s.registry) ++
      (match s.start with
        | some start => line "prefix" (Toml.quote start)
        | none => []) ++
      "\n[directory]\n".toList ++ line "path" (Toml.quote s.path) ++
      line "page_size" (Text.decimal s.pageSize.toNat) ++
      "\n[events]\n".toList ++ line "bus_name" (Toml.quote s.bus) ++
      line "standard_resources" (Toml.array s.resources)))
  else none

/-- Whether the settings are the standard ones; paths are compared step by step. -/
def isStandard (s : Settings) : Bool :=
  FileTree.Route.ofText s.path = FileTree.Route.ofText standard.path &&
    { s with path := standard.path } = standard

def directoryPath (s : Settings) (here : String) : String := FileTree.Route.join here s.path

def publisher (s : Settings) : Publisher := ⟨s.bus, s.resources⟩

end Settings

end Schemata
