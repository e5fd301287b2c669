import Schemata.Proofs.Binding.Steps
import Schemata.Proofs.Model.Storage

/-! What a model does not declare has no influence on what it binds. Two payloads coincide along a model if they
have the same in the fields that it declares, on every level of it; they may differ in all other members, in the
order of members, and in fields that one gives as `null` and the other does not give. Such payloads are bound to
the same value, or both fail at the same place. -/
namespace Schemata

open Binding Json

inductive Json.Equiv : Json → Json → Prop where
  | same (v : Json) : Equiv v v
  | array {items others : List Json} : items.length = others.length →
      (∀ (i : Nat) v w, items[i]? = some v → others[i]? = some w → Equiv v w) →
      Equiv (.array items) (.array others)
  | object {members others : List (String × Json)} :
      (∀ key, find? key members = none ↔ find? key others = none) →
      (∀ key v w, find? key members = some v → find? key others = some w → Equiv v w) →
      Equiv (.object members) (.object others)

/-- The same in what the shape declares. Two objects coincide along a model if the same of its fields are given in
both, and coincide along their shapes. -/
inductive Shape.Coincide : Shape → Json → Json → Prop where
  | equiv {s : Shape} {v w : Json} : v.Equiv w → Coincide s v w
  | object {m : Model} {members others : List (String × Json)} :
      (∀ f ∈ m.fields, given? f.name members = none ↔ given? f.name others = none) →
      (∀ f ∈ m.fields, ∀ v w, given? f.name members = some v → given? f.name others = some w →
        Coincide f.shape v w) →
      Coincide (.model m) (.object members) (.object others)
  | array {item : Shape} {items others : List Json} : items.length = others.length →
      (∀ (i : Nat) v w, items[i]? = some v → others[i]? = some w → Coincide item v w) →
      Coincide (.array item) (.array items) (.array others)

def Model.Coincide (m : Model) (v w : Json) : Prop := (Shape.model m).Coincide v w

/-- Two objects coincide if each field is given in neither, or in both and there coincides along its shape. Other
members do not count, nor do `null` and the order of the members. -/
theorem Shape.coincide_object {m : Model} {members others : List (String × Json)}
    (each : ∀ f ∈ m.fields, given? f.name members = none ∧ given? f.name others = none ∨
      ∃ v w, given? f.name members = some v ∧ given? f.name others = some w ∧ f.shape.Coincide v w) :
    (Shape.model m).Coincide (.object members) (.object others) := by
  refine .object (fun f inside => ?_) fun f inside v w given given' => ?_
  · rcases each f inside with ⟨gone, gone'⟩ | ⟨v, w, given, given', -⟩
    · simp [gone, gone']
    · simp [given, given']
  · rcases each f inside with ⟨gone, -⟩ | ⟨_, _, known, known', coincide⟩
    · rw [gone] at given
      cases given
    · obtain rfl := Option.some.inj (given.symm.trans known)
      obtain rfl := Option.some.inj (given'.symm.trans known')
      exact coincide

theorem Json.given?_of_equiv {key : String} {members others : List (String × Json)}
    (keys : find? key members = none ↔ find? key others = none)
    (values : ∀ v w, find? key members = some v → find? key others = some w → v.Equiv w) :
    given? key members = none ↔ given? key others = none := by
  have null {v w : Json} (equiv : v.Equiv w) : v = .null ↔ w = .null := by
    cases equiv <;> simp
  rw [given?_eq_none_iff, given?_eq_none_iff, keys]
  refine or_congr_right ?_
  cases found : find? key members with
  | none => simp [keys.mp found]
  | some v =>
    cases found' : find? key others with
    | none => simp [keys.mpr found'] at found
    | some w => simpa using null (values v w found found')

namespace Binding

/-- The same is bound, or both fail at the same place. -/
inductive SameOutcome {α : Type} : Except Mismatch α → Except Mismatch α → Prop where
  | ok (b : α) : SameOutcome (.ok b) (.ok b)
  | error {e e' : Mismatch} : e.path = e'.path → SameOutcome (.error e) (.error e')

theorem SameOutcome.refl {α : Type} : ∀ a : Except Mismatch α, SameOutcome a a
  | .ok b => .ok b
  | .error _ => .error rfl

theorem SameOutcome.map {α β : Type} {a a' : Except Mismatch α} (f : α → β) (same : SameOutcome a a') :
    SameOutcome (a.map f) (a'.map f) := by
  cases same with
  | ok b => exact .ok (f b)
  | error paths => exact .error paths

theorem bindScalar_equiv (path : Path) (kind : Scalar) {v w : Json} (equiv : v.Equiv w) :
    SameOutcome (bindScalar path kind v) (bindScalar path kind w) := by
  cases equiv with
  | same v => exact .refl _
  | array | object => cases kind <;> exact .error rfl

theorem bindItems_congr {f : Path → Json → Except Mismatch Json} {items others : List Json}
    (length : items.length = others.length)
    (each : ∀ (i : Nat) v w, items[i]? = some v → others[i]? = some w → ∀ p, SameOutcome (f p v) (f p w))
    (path : Path) (index : Nat) : SameOutcome (bindItems f path index items) (bindItems f path index others) := by
  induction items generalizing others index with
  | nil =>
    rw [List.eq_nil_of_length_eq_zero length.symm]
    exact .refl _
  | cons v rest ih =>
    cases others with
    | nil => cases length
    | cons w others =>
      have later := ih (Nat.succ.inj length) (fun i v w inside => each (i + 1) v w inside) (index + 1)
      have first := each 0 v w rfl rfl (.item index :: path)
      generalize left : f (.item index :: path) v = a at first
      generalize right : f (.item index :: path) w = a' at first
      cases first with
      | ok b =>
        rw [bindItems_cons_ok left, bindItems_cons_ok right]
        exact later.map _
      | error paths =>
        rw [bindItems_cons_error left, bindItems_cons_error right]
        exact .error paths

end Binding

theorem Field.bindAll_congr {members others : List (String × Json)} {fs : List Field}
    (given : ∀ f ∈ fs, given? f.name members = none ↔ given? f.name others = none)
    (each : ∀ f ∈ fs, ∀ v w, given? f.name members = some v → given? f.name others = some w →
      ∀ p, SameOutcome (f.shape.bindAt p v) (f.shape.bindAt p w))
    (path : Path) (bound : List (String × Json)) :
    SameOutcome (Field.bindAll path members bound fs) (Field.bindAll path others bound fs) := by
  induction fs generalizing bound with
  | nil => exact .refl _
  | cons f rest ih =>
    have later := ih (fun g inside => given g (List.mem_cons_of_mem _ inside))
      fun g inside => each g (List.mem_cons_of_mem _ inside)
    cases here : given? f.name members with
    | none =>
      have here' := (given f List.mem_cons_self).mp here
      rw [Field.bindAll_of_none here, Field.bindAll_of_none here']
      split
      · exact .refl _
      · exact later bound
    | some v =>
      obtain ⟨w, here'⟩ : ∃ w, given? f.name others = some w := by
        refine Option.ne_none_iff_exists'.mp fun gone => ?_
        rw [(given f List.mem_cons_self).mpr gone] at here
        cases here
      have first := each f List.mem_cons_self v w here here' (.field f.name :: path)
      generalize left : f.shape.bindAt (.field f.name :: path) v = a at first
      generalize right : f.shape.bindAt (.field f.name :: path) w = a' at first
      cases first with
      | ok b =>
        rw [Field.bindAll_of_ok here left, Field.bindAll_of_ok here' right]
        exact later _
      | error paths =>
        rw [Field.bindAll_of_error here left, Field.bindAll_of_error here' right]
        exact .error paths

theorem Shape.bindAt_equiv (s : Shape) : ∀ {v w : Json}, v.Equiv w → ∀ path,
    SameOutcome (s.bindAt path v) (s.bindAt path w) := by
  -- By induction on the shape. The order of members is forgotten where the shape is a model; elsewhere an
  -- object is a failure, whatever it holds.
  induction s using Shape.fieldwise with
  | scalar kind =>
    intro v w equiv path
    rw [Shape.bindAt_scalar, Shape.bindAt_scalar]
    exact bindScalar_equiv path kind equiv
  | model m below =>
    intro v w equiv path
    cases equiv with
    | same v => exact .refl _
    | array =>
      rw [Shape.bindAt_not_object m (by simp), Shape.bindAt_not_object m (by simp)]
      exact .error rfl
    | object keys values =>
      rw [Shape.bindAt_object, Shape.bindAt_object]
      refine (Field.bindAll_congr (fun f _ => Json.given?_of_equiv (keys f.name) (values f.name)) ?_ path []).map _
      intro f inside v w given given'
      exact below f inside (values f.name v w (given?_eq_some_iff.mp given).1 (given?_eq_some_iff.mp given').1)
  | array item below =>
    intro v w equiv path
    cases equiv with
    | same v => exact .refl _
    | array length each =>
      rw [Shape.bindAt_array, Shape.bindAt_array]
      exact (bindItems_congr length (fun i v w inside inside' p => below (each i v w inside inside') p) path 0).map _
    | object =>
      rw [Shape.bindAt_not_array item (by simp), Shape.bindAt_not_array item (by simp)]
      exact .error rfl

theorem Shape.Coincide.bindAt {s : Shape} {v w : Json} (coincide : s.Coincide v w) :
    ∀ path, SameOutcome (s.bindAt path v) (s.bindAt path w) := by
  induction coincide with
  | equiv equiv => exact Shape.bindAt_equiv _ equiv
  | object given _ each =>
    intro path
    rw [Shape.bindAt_object, Shape.bindAt_object]
    exact (Field.bindAll_congr given each path []).map _
  | array length _ each =>
    intro path
    rw [Shape.bindAt_array, Shape.bindAt_array]
    exact (bindItems_congr length each path 0).map _

/-- Payloads that coincide along a model are bound to the same value, with its members in the same order, or both fail
at the same place. -/
theorem Model.bind_of_coincide {m : Model} {v w : Json} (coincide : m.Coincide v w) :
    (∃ b, m.bind v = .ok b ∧ m.bind w = .ok b) ∨
      ∃ e e', m.bind v = .error e ∧ m.bind w = .error e' ∧ e.path = e'.path := by
  have same := Shape.Coincide.bindAt coincide []
  rw [Shape.bindAt_model, Shape.bindAt_model, ← Model.bind, ← Model.bind] at same
  generalize m.bind v = a at same ⊢
  generalize m.bind w = a' at same ⊢
  cases same with
  | ok b => exact .inl ⟨b, rfl, rfl⟩
  | error paths => exact .inr ⟨_, _, rfl, rfl, paths⟩

def Model.sampleLetter : Model :=
  let line := ((Model.named "Line").addField "text" (.scalar .string) true).addField "note" (.scalar .string) false
  (Model.named "Letter").addField "lines" (.array (.model line)) true

def Json.sampleLetter (text : Json) : Json :=
  .object [("seal", .bool true), ("lines", .array [.object [("text", text), ("note", .null)]])]

def Json.sampleLetterToo (text : Json) : Json :=
  .object [("lines", .array [.object [("font", .null), ("text", text)]]), ("stamp", .object [])]

theorem Model.sampleLetter_coincide {text text' : Json} (given : text ≠ .null) (given' : text' ≠ .null)
    (equiv : text.Equiv text') : Model.sampleLetter.Coincide (.sampleLetter text) (.sampleLetterToo text') := by
  have line : (Shape.model (((Model.named "Line").addField "text" (.scalar .string) true).addField "note"
      (.scalar .string) false)).Coincide (.object [("text", text), ("note", .null)])
        (.object [("font", .null), ("text", text')]) := by
    apply Shape.coincide_object
    rintro f (_ | ⟨_, _ | ⟨_, ⟨⟩⟩⟩)
    · exact .inr ⟨text, text', given?_eq_some_iff.mpr ⟨rfl, given⟩, given?_eq_some_iff.mpr ⟨rfl, given'⟩, .equiv equiv⟩
    · exact .inl ⟨rfl, rfl⟩
  apply Shape.coincide_object
  rintro f (_ | ⟨_, ⟨⟩⟩)
  refine .inr ⟨_, _, rfl, rfl, .array rfl ?_⟩
  rintro (_ | i) v w ⟨⟩ ⟨⟩
  exact line

/-- A line of text is bound. An object in the place of the text fails there, in whatever order its members are. -/
theorem Model.sampleLetter_binds_alike :
    let bound : Json := .object [("lines", .array [.object [("text", .string "Hi")]])]
    Model.sampleLetter.bind (.sampleLetter (.string "Hi")) = .ok bound ∧
    Model.sampleLetter.bind (.sampleLetterToo (.string "Hi")) = .ok bound ∧
    ∃ e e', Model.sampleLetter.bind (.sampleLetter (.object [("de", .null), ("en", .null)])) = .error e ∧
      Model.sampleLetter.bind (.sampleLetterToo (.object [("en", .null), ("de", .null)])) = .error e' ∧
      e.path = e'.path ∧ pathText e.path = "lines[0].text" := by
  intro bound
  have binds : Model.sampleLetter.bind (.sampleLetter (.string "Hi")) = .ok bound := rfl
  have fails : Model.sampleLetter.bind (.sampleLetter (.object [("de", .null), ("en", .null)])) =
      .error ⟨[.field "text", .item 0, .field "lines"],
        .otherKind .string (.object [("de", .null), ("en", .null)])⟩ := rfl
  have swapped : (Json.object [("de", .null), ("en", .null)]).Equiv (.object [("en", .null), ("de", .null)]) := by
    refine .object (fun key => ?_) fun key v w found found' => ?_
    · by_cases de : "de" = key <;> by_cases en : "en" = key <;> simp [find?, de, en]
    · have null {members : List (String × Json)} {u : Json} (each : ∀ member ∈ members, member.2 = .null)
          (found : find? key members = some u) : u = .null := each _ (mem_of_find? found)
      rw [null (by simp) found, null (by simp) found']
      exact .same _
  refine ⟨binds, ?_, ?_⟩
  · rcases Model.bind_of_coincide (sampleLetter_coincide (by simp) (by simp) (.same (.string "Hi"))) with
      ⟨b, first, second⟩ | ⟨e, e', first, -, -⟩
    · rwa [first.symm.trans binds] at second
    · rw [binds] at first
      cases first
  · rcases Model.bind_of_coincide (sampleLetter_coincide (by simp) (by simp) swapped) with
      ⟨b, first, -⟩ | ⟨e, e', first, second, paths⟩
    · rw [fails] at first
      cases first
    · obtain rfl := Except.error.inj (fails.symm.trans first)
      exact ⟨_, e', fails, second, paths, by decide +kernel⟩

end Schemata
