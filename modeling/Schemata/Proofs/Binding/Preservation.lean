import Mathlib.Tactic.NormNum
import Schemata.Proofs.Binding.Place
import Schemata.Proofs.Binding.Steps
import Schemata.Proofs.Model.Sound

/-! What is bound stands in the payload at the same place. Texts, truth values and numbers are the ones of the
payload, but for `2 ^ 63`: given as a binary64 value it is bound as the number before it, the greatest signed
word. -/
namespace Schemata

namespace Json

def Leaf : Json → Prop
  | .array _ | .object _ => False
  | _ => True

/-- The same text, the same truth value, or numbers of one value. -/
def Agrees : Json → Json → Prop
  | .string a, .string b => a = b
  | .bool a, .bool b => a = b
  | .number a, .number b => a.value = b.value
  | _, _ => False

end Json

namespace Binding

open Json (find?)

theorem wholeOf?_value {d : Double} {w : Whole} (taken : wholeOf? d = some w) :
    (w.value : ℚ) = d.value ∨ d.value = 9223372036854775808 ∧ w.value = 9223372036854775807 := by
  obtain ⟨n, whole, -, high, clipped⟩ := wholeOf?_eq_some_iff.mp taken
  rcases Int.le_iff_lt_or_eq.mp high with below | rfl
  · left
    rw [whole, clipped, min_eq_left (Int.le_of_lt_add_one below)]
  · exact .inr ⟨by simpa using whole, clipped⟩

theorem wholeOf?_top {d : Double} {w : Whole} (taken : wholeOf? d = some w) (top : d.value = 9223372036854775808) :
    w.value = 9223372036854775807 := by
  obtain ⟨n, whole, -, -, clipped⟩ := wholeOf?_eq_some_iff.mp taken
  obtain rfl : n = 9223372036854775808 := by exact_mod_cast whole.symm.trans top
  exact clipped

theorem bindScalar_leaf {path : Path} {kind : Scalar} {v b : Json} (bound : bindScalar path kind v = .ok b) :
    b.Leaf := by
  obtain ⟨s, -, -, rfl⟩ | ⟨t, -, -, rfl⟩ | ⟨n, -, -, rfl⟩ | ⟨d, n, -, -, rfl, -⟩ := bindScalar_ok bound <;> trivial

end Binding

open Binding Json

/-- What stands at a place of a bound value has been bound from what stands there in the payload. -/
theorem Shape.bindAt_at? {place : List Segment} {s : Shape} {path : Path} {v b w : Json}
    (bound : s.bindAt path v = .ok b) (found : b.at? place = some w) :
    ∃ raw t, v.at? place = some raw ∧ Shape.bindAt (place.reverse ++ path) t raw = .ok w := by
  induction place generalizing s v b path with
  | nil =>
    cases found
    exact ⟨v, s, rfl, bound⟩
  | cons step rest ih =>
    rcases Shape.bindAt_cases bound with ⟨kind, rfl, made⟩ | ⟨m, members, out, rfl, rfl, done, rfl⟩ |
      ⟨item, items, out, rfl, rfl, done, rfl⟩
    · have leaf := bindScalar_leaf made
      cases step <;> cases b <;> first | cases found | exact leaf.elim
    · cases step with
      | field name =>
        obtain ⟨inner, member, below⟩ := Option.bind_eq_some_iff.mp found
        obtain none | ⟨f, -, raw, -, present, bindsTo⟩ := Field.of_find?_bindAll done member
        · cases none
        · obtain ⟨deep, t, there, made⟩ := ih bindsTo below
          exact ⟨deep, t, Option.bind_eq_some_iff.mpr ⟨raw, present, there⟩, by simpa using made⟩
      | item index => cases found
    · cases step with
      | field name => cases found
      | item index =>
        obtain ⟨inner, member, below⟩ := Option.bind_eq_some_iff.mp found
        obtain ⟨raw, present, bindsTo⟩ := of_getElem?_bindItems done member
        obtain ⟨deep, t, there, made⟩ := ih bindsTo below
        exact ⟨deep, t, Option.bind_eq_some_iff.mpr ⟨raw, present, there⟩, by simpa using made⟩

theorem Shape.bindAt_leaf {s : Shape} {path : Path} {v b : Json} (bound : s.bindAt path v = .ok b)
    (leaf : b.Leaf) :
    v = b ∧ ((∃ text, b = .string text) ∨ (∃ truth, b = .bool truth) ∨ ∃ n, b = .number (.whole n)) ∨
      ∃ d n, v = .number (.double d) ∧ b = .number (.whole n) ∧ wholeOf? d = some n := by
  rcases Shape.bindAt_cases bound with ⟨kind, rfl, made⟩ | ⟨_, _, _, -, -, -, rfl⟩ | ⟨_, _, _, -, -, -, rfl⟩
  · rcases bindScalar_ok made with ⟨s, -, rfl, rfl⟩ | ⟨t, -, rfl, rfl⟩ | ⟨n, -, rfl, rfl⟩ | ⟨d, n, -, rfl, rfl, taken⟩
    · exact .inl ⟨rfl, .inl ⟨s, rfl⟩⟩
    · exact .inl ⟨rfl, .inr (.inl ⟨t, rfl⟩)⟩
    · exact .inl ⟨rfl, .inr (.inr ⟨n, rfl⟩)⟩
    · exact .inr ⟨d, n, rfl, rfl, taken⟩
  · exact leaf.elim
  · exact leaf.elim

/-- The greatest binary64 value that is bound, and what it is bound as. -/
def Json.Clipped (raw leaf : Json) : Prop :=
  ∃ d n, raw = .number (.double d) ∧ d.value = 9223372036854775808 ∧
    leaf = .number (.whole n) ∧ n.value = 9223372036854775807

theorem Json.Clipped.not_agrees {raw leaf : Json} (clipped : raw.Clipped leaf) : ¬raw.Agrees leaf := by
  obtain ⟨d, n, rfl, top, rfl, below⟩ := clipped
  intro agrees
  have same : d.value = (n.value : ℚ) := agrees
  rw [top, below] at same
  exact absurd same (by decide)

theorem Shape.bindAt_agrees {s : Shape} {path : Path} {v b : Json} (bound : s.bindAt path v = .ok b)
    (leaf : b.Leaf) : v.Agrees b ∨ v.Clipped b := by
  rcases Shape.bindAt_leaf bound leaf with ⟨rfl, form⟩ | ⟨d, n, rfl, rfl, taken⟩
  · rcases form with ⟨_, rfl⟩ | ⟨_, rfl⟩ | ⟨_, rfl⟩ <;> exact .inl rfl
  · rcases wholeOf?_value taken with same | ⟨top, below⟩
    · exact .inl same.symm
    · exact .inr ⟨d, n, rfl, top, rfl, below⟩

theorem Shape.bindAt_double {s : Shape} {path : Path} {d : Double} {w : Json}
    (bound : s.bindAt path (.number (.double d)) = .ok w) : ∃ n, w = .number (.whole n) ∧ wholeOf? d = some n := by
  rcases Shape.bindAt_cases bound with ⟨kind, rfl, made⟩ | ⟨_, _, _, -, ⟨⟩, -⟩ | ⟨_, _, _, -, ⟨⟩, -⟩
  rcases bindScalar_ok made with ⟨_, -, ⟨⟩, -⟩ | ⟨_, -, ⟨⟩, -⟩ | ⟨_, -, ⟨⟩, -⟩ | ⟨_, n, -, ⟨⟩, whole, taken⟩
  exact ⟨n, whole, taken⟩

/-- Every leaf of what a model binds stands at a place of the payload, and it is the leaf that stands there, of
the same value if that is a number; all numbers are whole. There is one exception, the binary64 value `2 ^ 63`,
so that a payload is unaltered exactly if this is nowhere bound. -/
theorem Model.bind_unaltered_iff {m : Model} {payload b : Json} (bound : m.bind payload = .ok b) :
    (∀ place leaf, b.at? place = some leaf → leaf.Leaf →
      ∃ raw, payload.at? place = some raw ∧ (raw.Agrees leaf ∨ raw.Clipped leaf)) ∧
    (∀ place n, b.at? place = some (.number n) → ∃ w, n = .whole w) ∧
    ((∀ place leaf, b.at? place = some leaf → leaf.Leaf →
        ∃ raw, payload.at? place = some raw ∧ raw.Agrees leaf) ↔
      ∀ place d, payload.at? place = some (.number (.double d)) → d.value = 9223372036854775808 →
        b.at? place = none) := by
  rw [Model.bind, ← Shape.bindAt_model] at bound
  have kept (place : List Segment) (leaf : Json) (there : b.at? place = some leaf) (isLeaf : leaf.Leaf) :
      ∃ raw, payload.at? place = some raw ∧ (raw.Agrees leaf ∨ raw.Clipped leaf) := by
    obtain ⟨raw, t, given, made⟩ := Shape.bindAt_at? bound there
    exact ⟨raw, given, Shape.bindAt_agrees made isLeaf⟩
  refine ⟨kept, fun place n there => ?_, fun unaltered place d given top => ?_,
    fun nowhere place leaf there isLeaf => ?_⟩
  · obtain ⟨raw, t, given, made⟩ := Shape.bindAt_at? bound there
    rcases Shape.bindAt_leaf made trivial with ⟨-, ⟨_, ⟨⟩⟩ | ⟨_, ⟨⟩⟩ | ⟨w, same⟩⟩ | ⟨d, w, -, same, -⟩ <;>
      exact ⟨w, Json.number.inj same⟩
  · by_contra present
    obtain ⟨w, there⟩ := Option.ne_none_iff_exists'.mp present
    obtain ⟨raw, t, given', made⟩ := Shape.bindAt_at? bound there
    obtain rfl : Json.number (.double d) = raw := Option.some.inj (given.symm.trans given')
    obtain ⟨n, rfl, taken⟩ := Shape.bindAt_double made
    obtain ⟨raw, given', agrees⟩ := unaltered place _ there trivial
    obtain rfl : Json.number (.double d) = raw := Option.some.inj (given.symm.trans given')
    exact Json.Clipped.not_agrees ⟨d, n, rfl, top, rfl, wholeOf?_top taken top⟩ agrees
  · obtain ⟨raw, given, agrees | ⟨d, n, rfl, top, rfl, below⟩⟩ := kept place leaf there isLeaf
    · exact ⟨raw, given, agrees⟩
    · rw [nowhere place d given top] at there
      cases there

def Model.sampleTally : Model := (Model.named "Tally").addField "count" (.scalar .int) true

def Json.sampleCount (d : Double) : Json := .object [("count", .number (.double d)), ("unit", .null)]

theorem Json.double_of_sampleCount {x d : Double} {place : List Segment}
    (there : (sampleCount x).at? place = some (.number (.double d))) : d = x := by
  cases place with
  | nil => cases there
  | cons step rest =>
    cases step with
    | item index => cases there
    | field name =>
      obtain ⟨inner, member, below⟩ := Option.bind_eq_some_iff.mp there
      by_cases count : "count" = name <;> by_cases unit : "unit" = name <;> simp [find?, count, unit] at member <;>
        subst member <;> cases rest <;> simp_all [Json.at?]

theorem Model.sampleTally_bind {d : Double} {n : Whole} (taken : wholeOf? d = some n) :
    Model.sampleTally.bind (.sampleCount d) = .ok (.object [("count", .number (.whole n))]) := by
  simp [Model.sampleTally, Model.named, Model.addField, Model.bind, Model.bindAt, Field.bindAll, Shape.bindAt,
    bindScalar, Json.sampleCount, Json.find?, Json.put, taken]

theorem Model.sampleTally_unaltered :
    let three : Double := ⟨false, 6755399441055744, -51, by decide⟩
    let bound : Json := .object [("count", .number (.whole ⟨3, by decide⟩))]
    Model.sampleTally.bind (.sampleCount three) = .ok bound ∧
      ∀ place leaf, bound.at? place = some leaf → leaf.Leaf →
        ∃ raw, (Json.sampleCount three).at? place = some raw ∧ raw.Agrees leaf := by
  intro three bound
  have binds : Model.sampleTally.bind (.sampleCount three) = .ok bound := Model.sampleTally_bind (by decide +kernel)
  have value : three.value = 3 := by
    rw [Double.value]
    norm_num [three, Double.sign]
  refine ⟨binds, (Model.bind_unaltered_iff binds).2.2.mpr fun place d there top => ?_⟩
  rw [Json.double_of_sampleCount there, value] at top
  norm_num at top

/-- The greatest binary64 value that is bound is bound as the whole number before it. -/
theorem Model.sampleTally_altered :
    let top : Double := ⟨false, 4503599627370496, 11, by decide⟩
    let n : Whole := ⟨9223372036854775807, by decide⟩
    Model.sampleTally.AllDistinct ∧ top.value = 9223372036854775808 ∧
      (Json.sampleCount top).at? [.field "count"] = some (.number (.double top)) ∧
      ∃ b, Model.sampleTally.bind (.sampleCount top) = .ok b ∧
        b.at? [.field "count"] = some (.number (.whole n)) ∧ (n.value : ℚ) ≠ top.value := by
  intro top n
  have value : top.value = 9223372036854775808 := by
    rw [Double.value]
    norm_num [top, Double.sign]
  refine ⟨by decide +kernel, value, rfl, _, Model.sampleTally_bind (n := n) (by decide +kernel), rfl, ?_⟩
  rw [value]
  norm_num [n]

end Schemata
