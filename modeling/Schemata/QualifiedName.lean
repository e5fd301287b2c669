import Schemata.Text.Order
import Schemata.Text.Quoted
import Schemata.Text.Split

/-!
Qualified names `namespace.TypeName`, the names of schemas in a registry.

The type name is free of points, so the text is cut at its last point and names and texts are in bijection.
-/
namespace Schemata

structure QualifiedName where
  space : String
  typeName : String
deriving DecidableEq, Repr

namespace QualifiedName

inductive Fault where
  | emptyPart (space typeName : String)
  | pointInType (typeName : String)
  | noPoint (text : String)
deriving DecidableEq, Repr

def Fault.message : Fault → String
  | .emptyPart ns ty =>
    "qualified name needs a namespace and a type name, got " ++ Text.quoted ns ++ " and " ++
      Text.quoted ty
  | .pointInType ty => "type name " ++ Text.quoted ty ++ " must not contain '.'"
  | .noPoint s => Text.quoted s ++ " is not of the form namespace.TypeName"

/-- The name with the given parts: neither is empty, and the type name has no point. -/
def make (space typeName : String) : Except Fault QualifiedName :=
  if space = "" ∨ typeName = "" then .error (.emptyPart space typeName)
  else if '.' ∈ typeName.toList then .error (.pointInType typeName)
  else .ok ⟨space, typeName⟩

def text (n : QualifiedName) : String := n.space ++ "." ++ n.typeName

def parse (s : String) : Except Fault QualifiedName :=
  match Text.splitLast? '.' s.toList with
  | some (ns, ty) => make (String.ofList ns) (String.ofList ty)
  | none => .error (.noPoint s)

/-- By namespace, then by type name. -/
instance : Key QualifiedName where
  order a b := (Key.order a.space b.space).then (Key.order a.typeName b.typeName)

end QualifiedName

end Schemata
