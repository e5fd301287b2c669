import Schemata.Proofs.Binding
import Schemata.Proofs.Number.Value

/-! What one step of binding does: to a binary64 value, to the next field, to the next item, and to a value of
which the shape is known. All that is proved of whole payloads rests on these. -/
namespace Schemata

/-- The member under a key, unless it is `null`. -/
def Json.given? (key : String) (members : List (String × Json)) : Option Json :=
  match find? key members with
  | none | some .null => none
  | some v => some v

namespace Json

variable {key : String} {members : List (String × Json)}

theorem given?_eq_some_iff {v : Json} :
    given? key members = some v ↔ find? key members = some v ∧ v ≠ .null := by
  unfold given?
  split
  · rename_i gone
    simp [gone]
  · rename_i null
    simp [null, eq_comm (a := Json.null)]
  · rename_i w nonnull found
    simp only [found, Option.some.injEq, iff_self_and]
    rintro rfl
    exact nonnull

theorem given?_eq_none_iff :
    given? key members = none ↔ find? key members = none ∨ find? key members = some .null := by
  unfold given?
  split <;> simp_all

end Json

namespace Binding

/-- The whole number that a binary64 value is bound as, if it equals one from `-2 ^ 63` to `2 ^ 63`. -/
theorem wholeOf?_eq_some_iff {d : Double} {w : Whole} : wholeOf? d = some w ↔
    ∃ n : ℤ, d.value = n ∧ -9223372036854775808 ≤ n ∧ n ≤ 9223372036854775808 ∧
      w.value = min n 9223372036854775807 := by
  obtain ⟨value, fits⟩ := w
  constructor
  · intro taken
    unfold wholeOf? at taken
    split at taken
    · rename_i n whole
      split at taken
      · rename_i range
        cases taken
        exact ⟨n, Double.toInt?_eq_some_iff.mp whole, range.1, range.2, rfl⟩
      · cases taken
    · cases taken
  · rintro ⟨n, whole, low, high, rfl⟩
    simp [wholeOf?, Double.toInt?_eq_some_iff.mpr whole, low, high]

theorem bindItems_cons_ok {f : Path → Json → Except Mismatch Json} {path : Path} {index : Nat} {v b : Json}
    (first : f (.item index :: path) v = .ok b) (rest : List Json) :
    bindItems f path index (v :: rest) = (bindItems f path (index + 1) rest).map (b :: ·) := by
  cases later : bindItems f path (index + 1) rest <;> simp [bindItems, first, later, Except.map]

theorem bindItems_cons_error {f : Path → Json → Except Mismatch Json} {path : Path} {index : Nat} {v : Json}
    {e : Mismatch} (first : f (.item index :: path) v = .error e) (rest : List Json) :
    bindItems f path index (v :: rest) = .error e := by
  simp [bindItems, first]

/-- The items that are bound are those of the payload, each at its index. -/
theorem of_getElem?_bindItems {f : Path → Json → Except Mismatch Json} {path : Path} {index : Nat}
    {items out : List Json} (done : bindItems f path index items = .ok out) {i : Nat} {w : Json}
    (found : out[i]? = some w) : ∃ raw, items[i]? = some raw ∧ f (.item (index + i) :: path) raw = .ok w := by
  induction items generalizing index out i with
  | nil =>
    cases done
    cases found
  | cons v rest ih =>
    obtain ⟨b, more, first, later, rfl⟩ := bindItems_cons done
    cases i with
    | zero =>
      cases found
      exact ⟨v, rfl, first⟩
    | succ i =>
      obtain ⟨raw, inside, bound⟩ := ih later (by simpa using found)
      exact ⟨raw, by simpa using inside, by rwa [Nat.succ_add_eq_add_succ] at bound⟩

theorem length_bindItems {f : Path → Json → Except Mismatch Json} {path : Path} {index : Nat} {items out : List Json}
    (done : bindItems f path index items = .ok out) : out.length = items.length := by
  induction items generalizing index out with
  | nil =>
    cases done
    rfl
  | cons v rest ih =>
    obtain ⟨b, more, -, later, rfl⟩ := bindItems_cons done
    simp [ih later]

/-- Items that can be bound are bound before all that follow. -/
theorem bindItems_append {f : Path → Json → Except Mismatch Json} {before : List Json}
    (fine : ∀ v ∈ before, ∀ p, ∃ b, f p v = .ok b) (path : Path) (index : Nat) : ∃ out, ∀ rest,
      bindItems f path index (before ++ rest) = (bindItems f path (index + before.length) rest).map (out ++ ·) := by
  induction before generalizing index with
  | nil =>
    refine ⟨[], fun rest => ?_⟩
    cases done : bindItems f path index rest <;> simp [done, Except.map]
  | cons v before ih =>
    obtain ⟨b, first⟩ := fine v List.mem_cons_self (.item index :: path)
    obtain ⟨out, later⟩ := ih (fun w inside => fine w (List.mem_cons_of_mem _ inside)) (index + 1)
    refine ⟨b :: out, fun rest => ?_⟩
    rw [List.cons_append, bindItems_cons_ok first, later, List.length_cons, Nat.add_right_comm, Nat.add_assoc]
    cases bindItems f path (index + (before.length + 1)) rest <;> rfl

end Binding

open Binding Json

section
variable {path : Path} {members bound : List (String × Json)} {f : Field}

theorem Field.bindAll_of_none (gone : given? f.name members = none) (rest : List Field) :
    Field.bindAll path members bound (f :: rest) =
      if f.required then .error ⟨.field f.name :: path, .missing⟩
      else Field.bindAll path members bound rest := by
  obtain ⟨name, shape, required⟩ := f
  rcases given?_eq_none_iff.mp gone with none | null
  · simp only at none
    simp [Field.bindAll, none]
  · simp only at null
    simp [Field.bindAll, null]

theorem Field.bindAll_of_ok {raw v : Json} (given : given? f.name members = some raw)
    (binds : f.shape.bindAt (.field f.name :: path) raw = .ok v) (rest : List Field) :
    Field.bindAll path members bound (f :: rest) =
      Field.bindAll path members (Json.put f.name v bound) rest := by
  obtain ⟨present, nonnull⟩ := given?_eq_some_iff.mp given
  exact Field.bindAll_present present nonnull binds

theorem Field.bindAll_of_error {raw : Json} {e : Mismatch} (given : given? f.name members = some raw)
    (fails : f.shape.bindAt (.field f.name :: path) raw = .error e) (rest : List Field) :
    Field.bindAll path members bound (f :: rest) = .error e := by
  obtain ⟨present, nonnull⟩ := given?_eq_some_iff.mp given
  obtain ⟨name, shape, required⟩ := f
  cases raw <;> simp_all [Field.bindAll]

/-- Fields that can be bound are bound before all that follow. -/
theorem Field.bindAll_append {before : List Field}
    (required : ∀ g ∈ before, g.required = true → given? g.name members ≠ none)
    (fine : ∀ g ∈ before, ∀ v, given? g.name members = some v → ∀ p, ∃ b, g.shape.bindAt p v = .ok b)
    (path : Path) (bound : List (String × Json)) : ∃ bound', ∀ rest,
      Field.bindAll path members bound (before ++ rest) = Field.bindAll path members bound' rest := by
  induction before generalizing bound with
  | nil => exact ⟨bound, fun rest => rfl⟩
  | cons g before ih =>
    have later := ih (fun h inside => required h (List.mem_cons_of_mem _ inside))
      fun h inside => fine h (List.mem_cons_of_mem _ inside)
    cases given : given? g.name members with
    | none =>
      have optional : g.required = false := by
        by_contra needed
        exact required g List.mem_cons_self (by simpa using needed) given
      obtain ⟨bound', same⟩ := later bound
      refine ⟨bound', fun rest => ?_⟩
      rw [List.cons_append, Field.bindAll_of_none given, optional, same]
      rfl
    | some v =>
      obtain ⟨b, binds⟩ := fine g List.mem_cons_self v given (.field g.name :: path)
      obtain ⟨bound', same⟩ := later (Json.put g.name b bound)
      refine ⟨bound', fun rest => ?_⟩
      rw [List.cons_append, Field.bindAll_of_ok given binds, same]

end

/-- A member that is bound comes from a field of its name and from the payload's member under that name. -/
theorem Field.of_find?_bindAll {path : Path} {members bound out : List (String × Json)} {fs : List Field}
    (done : Field.bindAll path members bound fs = .ok out) {key : String} {w : Json}
    (found : find? key out = some w) : find? key bound = some w ∨ ∃ f ∈ fs, ∃ raw,
      f.name = key ∧ find? key members = some raw ∧ f.shape.bindAt (.field key :: path) raw = .ok w := by
  induction fs generalizing bound with
  | nil =>
    cases done
    exact .inl found
  | cons f rest ih =>
    have further {bound' : List (String × Json)} (later : Field.bindAll path members bound' rest = .ok out) :
        find? key bound' = some w ∨ ∃ g ∈ f :: rest, ∃ raw,
          g.name = key ∧ find? key members = some raw ∧ g.shape.bindAt (.field key :: path) raw = .ok w :=
      (ih later).imp_right fun ⟨g, inside, rest⟩ => ⟨g, List.mem_cons_of_mem _ inside, rest⟩
    rcases Field.bindAll_cons done with ⟨_, _, later⟩ | ⟨raw, v, present, _, bindsTo, later⟩
    · exact further later
    · rcases further later with put | inside
      · by_cases same : key = f.name
        · subst same
          rw [find?_put_same, Option.some.injEq] at put
          exact .inr ⟨f, List.mem_cons_self, raw, rfl, present, put ▸ bindsTo⟩
        · rw [find?_put_other same] at put
          exact .inl put
      · exact .inr inside

namespace Shape

variable {path : Path}

theorem bindAt_scalar (kind : Scalar) (v : Json) : (scalar kind).bindAt path v = bindScalar path kind v := by
  rw [bindAt]

theorem bindAt_model (m : Model) (v : Json) : (model m).bindAt path v = m.bindAt path v := by
  rw [bindAt]

theorem bindAt_object (m : Model) (members : List (String × Json)) :
    (model m).bindAt path (.object members) = (Field.bindAll path members [] m.fields).map .object := by
  obtain ⟨name, description, fields, definitions⟩ := m
  cases done : Field.bindAll path members [] fields <;> simp [bindAt, Model.bindAt, done, Except.map]

theorem bindAt_not_object (m : Model) {v : Json} (other : ∀ members, v ≠ .object members) :
    (model m).bindAt path v = .error ⟨path, .notAnObject m.name⟩ := by
  obtain ⟨name, description, fields, definitions⟩ := m
  cases v with
  | object members => exact absurd rfl (other members)
  | _ => simp [bindAt, Model.bindAt]

theorem bindAt_array (item : Shape) (items : List Json) :
    (array item).bindAt path (.array items) =
      (bindItems (fun path v => item.bindAt path v) path 0 items).map .array := by
  cases done : bindItems (fun path v => item.bindAt path v) path 0 items <;> simp [bindAt, done, Except.map]

theorem bindAt_not_array (item : Shape) {v : Json} (other : ∀ items, v ≠ .array items) :
    (array item).bindAt path v = .error ⟨path, .notAnArray⟩ := by
  cases v with
  | array items => exact absurd rfl (other items)
  | _ => simp [bindAt]

/-- What is bound has the form of its shape, and so had the payload. -/
theorem bindAt_cases {s : Shape} {v b : Json} (bound : s.bindAt path v = .ok b) :
    (∃ kind, s = .scalar kind ∧ bindScalar path kind v = .ok b) ∨
    (∃ m members out, s = .model m ∧ v = .object members ∧
      Field.bindAll path members [] m.fields = .ok out ∧ b = .object out) ∨
    ∃ item items out, s = .array item ∧ v = .array items ∧
      bindItems (fun path v => item.bindAt path v) path 0 items = .ok out ∧ b = .array out := by
  cases s with
  | scalar kind =>
    rw [bindAt_scalar] at bound
    exact .inl ⟨kind, rfl, bound⟩
  | model m =>
    cases v with
    | object members =>
      rw [bindAt_object] at bound
      cases done : Field.bindAll path members [] m.fields with
      | error e => simp [done, Except.map] at bound
      | ok out =>
        obtain rfl : .object out = b := by simpa [done, Except.map] using bound
        exact .inr (.inl ⟨m, members, out, rfl, rfl, done, rfl⟩)
    | _ =>
      rw [bindAt_not_object m (by simp)] at bound
      cases bound
  | array item =>
    cases v with
    | array items =>
      rw [bindAt_array] at bound
      cases done : bindItems (fun path v => item.bindAt path v) path 0 items with
      | error e => simp [done, Except.map] at bound
      | ok out =>
        obtain rfl : .array out = b := by simpa [done, Except.map] using bound
        exact .inr (.inr ⟨item, items, out, rfl, rfl, done, rfl⟩)
    | _ =>
      rw [bindAt_not_array item (by simp)] at bound
      cases bound

end Shape

end Schemata
