import Schemata.Binding
import Schemata.Directory.Basic
import Schemata.QualifiedName
import Schemata.Reflection

/-!
Everything that can go wrong between a model and its published events, with the wording of each failure.
-/
namespace Schemata

structure BusError where
  bus : String
  reason : String
deriving DecidableEq, Repr

def BusError.message (e : BusError) : String :=
  "Event bus " ++ e.bus ++ " rejected the event: " ++ e.reason

/-- What stopped a registration: a call made for it, or reading the history that it would extend. -/
inductive RegistrationFault where
  | call (e : DirectoryError)
  | history (e : DirectoryError)
deriving DecidableEq, Repr

inductive SchemaError where
  | notFound (name version : String)
  | unregistered (model : Handle)
  | registration (name : String) (fault : RegistrationFault)
  | reflection (e : ReflectionError)
  | correlation (text : String)
  | qualifiedName (fault : QualifiedName.Fault)
  | identity (fault : Identity.Fault)
  | payload (mismatch : Binding.Mismatch)
  | directory (e : DirectoryError)
  | bus (e : BusError)
  /-- A text is not a document, or not one of the expected form. -/
  | json
deriving Repr

namespace SchemaError

/-- A missing version is named as such; every other failure is the directory's. -/
def ofDirectory : DirectoryError → SchemaError
  | .notFound name version => notFound name version
  | e => directory e

def absent (name : String) (version : Option String) : SchemaError :=
  notFound name (version.getD "default")

def plainMessage : SchemaError → String
  | notFound name version => "Schema not found: " ++ name ++ " version " ++ version
  | unregistered model => "Model not registered: " ++ model.text
  | registration name _ => "Registration of " ++ name ++ " rejected"
  | reflection e => e.message
  | correlation text => "Malformed schema correlation: " ++ Text.quoted text
  | qualifiedName fault => "Invalid schema identity: " ++ fault.message
  | identity fault => "Invalid schema identity: " ++ fault.message
  | payload mismatch => mismatch.message
  | directory e => "Directory error: " ++ e.message
  | bus e => "Event bus error: " ++ e.message
  | json => "JSON error: not a document of the expected form"

def message : SchemaError → String
  | registration name (.call e) => "Registration of " ++ name ++ " rejected: " ++ e.message
  | registration name (.history e) =>
    "Registration of " ++ name ++ " rejected: " ++ (ofDirectory e).plainMessage
  | e => e.plainMessage

end SchemaError

end Schemata
