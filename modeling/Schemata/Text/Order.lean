/-!
The order of texts by code point, which is also the order of their UTF-8 bytes.
-/
namespace Schemata

class Key (κ : Type) where
  order : κ → κ → Ordering

def Key.sort [Key κ] (keys : List κ) : List κ := keys.mergeSort fun a b => order a b ≠ .gt

namespace Text

/-- Compares at the first difference; a text comes before its continuations. -/
def order : List Char → List Char → Ordering
  | [], [] => .eq
  | [], _ :: _ => .lt
  | _ :: _, [] => .gt
  | a :: as, b :: bs =>
    if a.toNat < b.toNat then .lt else if b.toNat < a.toNat then .gt else order as bs

end Text

instance : Key String := ⟨fun a b => Text.order a.toList b.toList⟩

end Schemata
