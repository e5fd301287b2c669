import Schemata.Binding
import Schemata.Proofs.Text.Digits
import Schemata.Text.Split

/-! Places in a payload: what stands there, and how the way to them is written. Two ways along names without
points, brackets and dollar signs are written differently. -/
namespace Schemata

open Binding

/-- What stands at a place, given by the steps to it from the outside in. -/
def Json.at? : List Segment → Json → Option Json
  | [], v => some v
  | .field name :: rest, .object members => (find? name members).bind fun v => at? rest v
  | .item index :: rest, .array items => items[index]?.bind fun v => at? rest v
  | _ :: _, _ => none

namespace Binding

open Text

/-- The steps of a path; nothing for the payload itself. -/
def steps (path : Path) : String :=
  path.foldr (fun step text =>
    match step with
    | .field name => if text = "" then name else text ++ "." ++ name
    | .item index => text ++ "[" ++ String.ofList (decimal index) ++ "]") ""

theorem pathText_eq (path : Path) : pathText path = if steps path = "" then "$" else steps path := rfl

theorem toList_steps_field (name : String) (path : Path) : (steps (.field name :: path)).toList =
    if steps path = "" then name.toList else (steps path).toList ++ '.' :: name.toList := by
  change (if steps path = "" then name else steps path ++ "." ++ name).toList = _
  split
  · rfl
  · simp

theorem toList_steps_item (index : Nat) (path : Path) : (steps (.item index :: path)).toList =
    (steps path).toList ++ '[' :: (decimal index ++ [']']) := by
  change (steps path ++ "[" ++ String.ofList (decimal index) ++ "]").toList = _
  simp

/-- A name that is not empty and has none of the characters that paths are written with. -/
structure PlainName (name : String) : Prop where
  filled : name ≠ ""
  free : ∀ c ∈ ['.', '[', ']', '$'], c ∉ name.toList

instance (name : String) : Decidable (PlainName name) :=
  decidable_of_iff (name ≠ "" ∧ ['.', '[', ']', '$'].all (· ∉ name.toList))
    ⟨fun h => ⟨h.1, by simpa using h.2⟩, fun h => ⟨h.filled, by simpa using h.free⟩⟩

def PlainPath (path : Path) : Prop := ∀ name, .field name ∈ path → PlainName name

section
variable {name : String} {path : Path} {step : Segment}

theorem PlainPath.tail (plain : PlainPath (step :: path)) : PlainPath path :=
  fun name inside => plain name (List.mem_cons_of_mem _ inside)

theorem PlainPath.head (plain : PlainPath (.field name :: path)) : PlainName name := plain name List.mem_cons_self

theorem not_mem_index {c : Char} (other : isDigit c = false) (bracket : c ≠ ']') (index : Nat) :
    c ∉ decimal index ++ [']'] := by
  rw [List.mem_append, List.mem_singleton, not_or]
  exact ⟨fun digit => by simpa [other] using decimal_digits index c digit, bracket⟩

theorem steps_ne_empty (plain : PlainPath (step :: path)) : steps (step :: path) ≠ "" := by
  rw [ne_eq, ← String.toList_eq_nil_iff]
  cases step with
  | field name =>
    have filled : name.toList ≠ [] := by simpa using plain.head.filled
    rw [toList_steps_field]
    split <;> simp [filled]
  | item index => simp [toList_steps_item]

theorem dollar_not_mem_steps (plain : PlainPath path) : '$' ∉ (steps path).toList := by
  induction path with
  | nil => simp [steps]
  | cons step rest ih =>
    have before := ih plain.tail
    cases step with
    | field name =>
      have free : '$' ∉ name.toList := plain.head.free '$' (by simp)
      rw [toList_steps_field]
      split <;> simp [free, before]
    | item index =>
      have free : '$' ∉ decimal index ++ [']'] := not_mem_index (by decide) (by decide) index
      rw [toList_steps_item]
      simp only [List.mem_append, List.mem_cons, not_or] at free ⊢
      exact ⟨before, by decide, free⟩

theorem steps_item_ne_field (plain : PlainName name) (index : Nat) (way other : Path) :
    steps (.item index :: way) ≠ steps (.field name :: other) := by
  intro same
  have filled : name.toList ≠ [] := by simpa using plain.filled
  obtain ⟨lead, ends⟩ : ∃ lead, (steps (.field name :: other)).toList = lead ++ name.toList := by
    rw [toList_steps_field]
    split
    · exact ⟨[], rfl⟩
    · exact ⟨(steps other).toList ++ ['.'], by simp⟩
  rw [← same, toList_steps_item, ← List.cons_append, ← List.append_assoc] at ends
  have last := congrArg List.getLast? ends
  rw [List.getLast?_concat, List.getLast?_append_of_ne_nil _ filled] at last
  exact plain.free ']' (by simp) (List.mem_of_getLast? last.symm)

theorem splitLast?_steps_field (plain : PlainName name) (path : Path) :
    splitLast? '.' (steps (.field name :: path)).toList =
      if steps path = "" then none else some ((steps path).toList, name.toList) := by
  have free : '.' ∉ name.toList := plain.free '.' (by simp)
  rw [toList_steps_field]
  split
  · exact splitLast?_eq_none.mpr free
  · exact splitLast?_append _ free

theorem splitLast?_steps_item (index : Nat) (path : Path) :
    splitLast? '[' (steps (.item index :: path)).toList =
      some ((steps path).toList, decimal index ++ [']']) := by
  rw [toList_steps_item]
  exact splitLast?_append _ (not_mem_index (by decide) (by decide) index)

/-- What is written tells whether the last step is to a field or to an item, which one, and the way before. -/
theorem steps_injective {p q : Path} (plainP : PlainPath p) (plainQ : PlainPath q) (same : steps p = steps q) :
    p = q := by
  induction p generalizing q with
  | nil =>
    cases q with
    | nil => rfl
    | cons step rest => exact absurd same.symm (steps_ne_empty plainQ)
  | cons first before ih =>
    cases q with
    | nil => exact absurd same (steps_ne_empty plainP)
    | cons second others =>
      cases first with
      | field name =>
        cases second with
        | field name' =>
          have cut := splitLast?_steps_field plainP.head before
          rw [same, splitLast?_steps_field plainQ.head] at cut
          have way : steps before = steps others := by
            by_cases short : steps before = "" <;> by_cases short' : steps others = "" <;>
              simp_all [String.toList_inj]
          have named : name = name' := by
            have texts := congrArg String.toList same
            rw [toList_steps_field, toList_steps_field, way] at texts
            split at texts
            · exact String.toList_inj.mp texts
            · simpa [String.toList_inj] using texts
          rw [ih plainP.tail plainQ.tail way, named]
        | item index' => exact absurd same.symm (steps_item_ne_field plainP.head index' others before)
      | item index =>
        cases second with
        | field name' => exact absurd same (steps_item_ne_field plainQ.head index before others)
        | item index' =>
          have cut := splitLast?_steps_item index before
          rw [same, splitLast?_steps_item, Option.some.injEq, Prod.mk.injEq, String.toList_inj,
            List.append_left_inj] at cut
          obtain ⟨way, digits⟩ := cut
          have number : index' = index := by rw [← value_decimal index', digits, value_decimal]
          rw [ih plainP.tail plainQ.tail way.symm, number]

/-- The text of a path tells the path. -/
theorem pathText_injective {p q : Path} (plainP : PlainPath p) (plainQ : PlainPath q)
    (same : pathText p = pathText q) : p = q := by
  have dollar {path : Path} (plain : PlainPath path) : steps path ≠ "$" := by
    intro text
    exact dollar_not_mem_steps plain (by simp [text])
  apply steps_injective plainP plainQ
  rw [pathText_eq, pathText_eq] at same
  split at same
  · split at same
    · simp_all
    · exact absurd same.symm (dollar plainQ)
  · split at same
    · exact absurd same (dollar plainP)
    · exact same

example : pathText [.field "id", .item 1, .field "groups"] = "groups[1].id" := by decide +kernel

end

end Binding

end Schemata
