import Schemata.Version

/-!
The version history of one schema. Versions are only added: an identifier keeps the version it got first,
and the default version is the one with the greatest identifier.
-/
namespace Schemata

structure History where
  registry : String
  name : String
  versions : Table VersionId Version
deriving DecidableEq, Repr

namespace History

def empty (registry name : String) : History := ⟨registry, name, Table.empty⟩

/-- Adds a version unless its identifier is taken; says whether it was added. -/
def insert (h : History) (v : Version) : History × Bool :=
  if h.versions.contains v.id then (h, false)
  else ({ h with versions := h.versions.insert v.id v }, true)

def defaultId? (h : History) : Option VersionId := h.versions.last?.map (·.1)

/-- The version with an identifier, or the default version. -/
def get? (h : History) : Option String → Option Version
  | some id => h.versions.get? ⟨id⟩
  | none => h.versions.last?.map (·.2)

def summary (h : History) : String :=
  "Schema<" ++ h.name ++ ", versions: " ++ String.ofList (Text.decimal h.versions.size) ++
    ", default version: " ++ (h.defaultId?.map (·.text)).getD "none" ++ ">"

end History

end Schemata
