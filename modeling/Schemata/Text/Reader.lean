/-!
Readers of written forms.
-/
namespace Schemata.Text

/-- Reads from the start of a text, and answers with what follows. -/
abbrev Reader (α : Type) := List Char → Option (α × List Char)

end Schemata.Text
