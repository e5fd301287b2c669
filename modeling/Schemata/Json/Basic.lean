import Schemata.Number.Double

/-!
Documents: the values that a schema, a payload or a record is written as.

An object is the list of its members in order. Members are looked up by their first occurrence; of members
with one key, `distinct` keeps the first place and the last value.
-/
namespace Schemata

/-- A whole number from `-2 ^ 63` to `2 ^ 64 - 1`: one that fits a signed or an unsigned 64-bit word. -/
structure Whole where
  value : Int
  fits : -9223372036854775808 ≤ value ∧ value < 18446744073709551616
deriving DecidableEq, Repr

/-- A number is whole and exact, or a binary64 value. The two kinds are never equal. -/
inductive Number where
  | whole (n : Whole)
  | double (d : Double)
deriving DecidableEq, Repr

inductive Json where
  | null
  | bool (b : Bool)
  | number (n : Number)
  | string (s : String)
  | array (items : List Json)
  | object (members : List (String × Json))
deriving Repr

namespace Json

mutual
/-- Structural equality, the order of members included. -/
def beq : Json → Json → Bool
  | null, null => true
  | bool a, bool b => a == b
  | number a, number b => a == b
  | string a, string b => a == b
  | array a, array b => beqItems a b
  | object a, object b => beqMembers a b
  | _, _ => false

def beqItems : List Json → List Json → Bool
  | [], [] => true
  | a :: as, b :: bs => beq a b && beqItems as bs
  | _, _ => false

def beqMembers : List (String × Json) → List (String × Json) → Bool
  | [], [] => true
  | (k, a) :: as, (l, b) :: bs => k == l && beq a b && beqMembers as bs
  | _, _ => false
end

mutual
theorem beq_iff : ∀ a b : Json, beq a b = true ↔ a = b
  | null, b => by cases b <;> simp [beq]
  | bool _, b => by cases b <;> simp [beq]
  | number _, b => by cases b <;> simp [beq]
  | string _, b => by cases b <;> simp [beq]
  | array a, b => by cases b <;> simp [beq, beqItems_iff a]
  | object a, b => by cases b <;> simp [beq, beqMembers_iff a]

theorem beqItems_iff : ∀ a b : List Json, beqItems a b = true ↔ a = b
  | [], b => by cases b <;> simp [beqItems]
  | a :: as, b => by cases b <;> simp [beqItems, beq_iff a, beqItems_iff as]

theorem beqMembers_iff : ∀ a b : List (String × Json), beqMembers a b = true ↔ a = b
  | [], b => by cases b <;> simp [beqMembers]
  | (k, a) :: as, b => by
    rcases b with _ | ⟨⟨l, b⟩, bs⟩ <;> simp [beqMembers, beq_iff a, beqMembers_iff as]
end

instance : DecidableEq Json := fun a b => decidable_of_iff _ (beq_iff a b)

def find? (key : String) : List (String × Json) → Option Json
  | [] => none
  | (k, v) :: rest => if k = key then some v else find? key rest

def get? (key : String) : Json → Option Json
  | object members => find? key members
  | _ => none

/-- Adds a member at the end, or gives a key that is there its new value in place. -/
def put (key : String) (value : Json) : List (String × Json) → List (String × Json)
  | [] => [(key, value)]
  | (k, v) :: rest => if k = key then (k, value) :: rest else (k, v) :: put key value rest

/-- The members with each key once: at its first place and with its last value. -/
def distinct (members : List (String × Json)) : List (String × Json) :=
  members.foldl (fun kept member => put member.1 member.2 kept) []

def string? : Json → Option String
  | string s => some s
  | _ => none

def word? : Json → Option UInt64
  | number (.whole n) => if 0 ≤ n.value then some (.ofNat n.value.toNat) else none
  | _ => none

def ofWord (w : UInt64) : Json :=
  number (.whole ⟨w.toNat, by have := w.toNat_lt; omega⟩)

/-- A member that is left out when there is no value. -/
def optional (key : String) (value : Option String) : List (String × Json) :=
  match value with
  | some s => [(key, string s)]
  | none => []

end Schemata.Json
