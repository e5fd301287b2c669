import Schemata.Checksum
import Schemata.Json.Reader
import Schemata.Json.Record
import Schemata.Text.Quoted

/-!
Schema documents: texts that are kept as written, and the formats they may be in.
-/
namespace Schemata

/-- The format that a stored document is declared to be in. -/
inductive Format where
  | jsonSchemaDraft4
  | openApi3
deriving DecidableEq, Repr

namespace Format

def name : Format → String
  | jsonSchemaDraft4 => "JSONSchemaDraft4"
  | openApi3 => "OpenApi3"

def ofName? : String → Option Format
  | "JSONSchemaDraft4" => some jsonSchemaDraft4
  | "OpenApi3" => some openApi3
  | _ => none

def toJson (f : Format) : Json := .string f.name

def ofWritten? (w : Written) : Option Format := w.name?.bind ofName?

end Format

/-- A document is its text; two documents are equal if their texts are. -/
structure Document where
  text : String
deriving DecidableEq, Repr

namespace Document

def ofJson (v : Json) : Document := ⟨v.text⟩

/-- The value that the text spells, if it is well formed. -/
def value? (d : Document) : Option Json := Json.ofText? d.text

def checksum (d : Document) : Checksum := .ofText d.text

def inspect (d : Document) : String :=
  "SchemaDocument \x7b content: " ++ Text.quoted d.text ++ " \x7d"

end Document

def Json.stringAt? (key : String) (v : Json) : Option String := (v.get? key).bind Json.string?

end Schemata
