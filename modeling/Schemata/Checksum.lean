import Schemata.Json.Printer
import Schemata.Sha256
import Schemata.Text.Order

/-!
Checksums of documents, and the handles of models.
-/
namespace Schemata

/-- The SHA-256 digest of a text, in lower-case hexadecimal. -/
structure Checksum where
  hex : String
deriving DecidableEq, Repr

def Checksum.ofBytes (bytes : List UInt8) : Checksum := ⟨Sha256.hex bytes⟩

def Checksum.ofText (s : String) : Checksum := ofBytes s.toUTF8.data.toList

def Checksum.ofJson (v : Json) : Checksum := ofText v.text

structure Handle where
  name : String
  checksum : Checksum
deriving DecidableEq, Repr

namespace Handle

/-- The name and the first twelve digits of the checksum. -/
def text (h : Handle) : String := h.name ++ "#" ++ String.ofList (h.checksum.hex.toList.take 12)

instance : Key Handle where
  order a b := (Key.order a.name b.name).then (Key.order a.checksum.hex b.checksum.hex)

end Handle

end Schemata
