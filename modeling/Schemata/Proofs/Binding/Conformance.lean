import Mathlib.Data.List.Nodup
import Schemata.Proofs.Binding.Place
import Schemata.Proofs.Binding.Steps
import Schemata.Proofs.Model.Levels
import Schemata.Proofs.Model.Sound

/-! Which payloads a model binds, to what, and where the others fail. A payload conforms, field by field, or there
is a first place at which it does not: all before it, in the order of the fields and of the items, conforms. -/
namespace Schemata

open Binding Json

/-- What a field of the shape may hold. -/
inductive Shape.Conforms : Shape → Json → Prop where
  | string (s : String) : Conforms (.scalar .string) (.string s)
  | bool (b : Bool) : Conforms (.scalar .bool) (.bool b)
  | whole (n : Whole) : Conforms (.scalar .int) (.number (.whole n))
  | double {d : Double} {n : ℤ} : d.value = n → -9223372036854775808 ≤ n → n ≤ 9223372036854775808 →
      Conforms (.scalar .int) (.number (.double d))
  | object {m : Model} {members : List (String × Json)} :
      (∀ f ∈ m.fields, f.required = true → given? f.name members ≠ none) →
      (∀ f ∈ m.fields, ∀ v, given? f.name members = some v → Conforms f.shape v) →
      Conforms (.model m) (.object members)
  | array {item : Shape} {items : List Json} : (∀ v ∈ items, Conforms item v) →
      Conforms (.array item) (.array items)

def Model.Conforms (m : Model) (v : Json) : Prop := (Shape.model m).Conforms v

structure Field.Conforms (members : List (String × Json)) (f : Field) : Prop where
  required : f.required = true → given? f.name members ≠ none
  shape : ∀ v, given? f.name members = some v → f.shape.Conforms v

/-- What a conforming value is bound as. An object keeps the members that are declared and given, in the order of
the fields; a binary64 value is bound as the whole number that it is, if that is a signed word. -/
inductive Shape.Binds : Shape → Json → Json → Prop where
  | string (s : String) : Binds (.scalar .string) (.string s) (.string s)
  | bool (b : Bool) : Binds (.scalar .bool) (.bool b) (.bool b)
  | whole (n : Whole) : Binds (.scalar .int) (.number (.whole n)) (.number (.whole n))
  | double {d : Double} {n : ℤ} {w : Whole} : d.value = n → w.value = min n 9223372036854775807 →
      Binds (.scalar .int) (.number (.double d)) (.number (.whole w))
  | object {m : Model} {members bound : List (String × Json)} :
      bound.map (·.1) = (m.fields.filter fun f => (given? f.name members).isSome).map (·.name) →
      (∀ f ∈ m.fields, ∀ v b, given? f.name members = some v → find? f.name bound = some b →
        Binds f.shape v b) →
      Binds (.model m) (.object members) (.object bound)
  | array {item : Shape} {items bound : List Json} : bound.length = items.length →
      (∀ (i : Nat) v b, items[i]? = some v → bound[i]? = some b → Binds item v b) →
      Binds (.array item) (.array items) (.array bound)

def Model.Binds (m : Model) (v b : Json) : Prop := (Shape.model m).Binds v b

/-- The value fails at the place, given from the outside in, and all that comes before this conforms. -/
inductive Shape.FailsFirst : Shape → Json → List Segment → Reason → Prop where
  | otherKind {kind : Scalar} {v : Json} : ¬(Shape.scalar kind).Conforms v →
      (kind = .int → ∀ d, v ≠ .number (.double d)) → FailsFirst (.scalar kind) v [] (.otherKind kind v)
  | notAnInteger {d : Double} : ¬(Shape.scalar .int).Conforms (.number (.double d)) →
      FailsFirst (.scalar .int) (.number (.double d)) [] (.notAnInteger (.double d))
  | notAnObject {m : Model} {v : Json} : (∀ members, v ≠ .object members) →
      FailsFirst (.model m) v [] (.notAnObject m.name)
  | missing {m : Model} {members : List (String × Json)} {before after : List Field} {f : Field} :
      m.fields = before ++ f :: after → (∀ g ∈ before, g.Conforms members) →
      f.required = true → given? f.name members = none →
      FailsFirst (.model m) (.object members) [.field f.name] .missing
  | field {m : Model} {members : List (String × Json)} {before after : List Field} {f : Field} {v : Json}
      {place : List Segment} {reason : Reason} :
      m.fields = before ++ f :: after → (∀ g ∈ before, g.Conforms members) →
      given? f.name members = some v → FailsFirst f.shape v place reason →
      FailsFirst (.model m) (.object members) (.field f.name :: place) reason
  | notAnArray {item : Shape} {v : Json} : (∀ items, v ≠ .array items) →
      FailsFirst (.array item) v [] .notAnArray
  | item {item : Shape} {before after : List Json} {v : Json} {place : List Segment} {reason : Reason} :
      (∀ w ∈ before, item.Conforms w) → FailsFirst item v place reason →
      FailsFirst (.array item) (.array (before ++ v :: after)) (.item before.length :: place) reason

def Model.FailsFirst (m : Model) (v : Json) (place : List Segment) (reason : Reason) : Prop :=
  (Shape.model m).FailsFirst v place reason

theorem Shape.conforms_double_iff {d : Double} :
    (Shape.scalar .int).Conforms (.number (.double d)) ↔ ∃ w, wholeOf? d = some w := by
  constructor
  · intro conforms
    cases conforms with
    | @double _ n value low high =>
      exact ⟨⟨min n 9223372036854775807, by omega⟩, wholeOf?_eq_some_iff.mpr ⟨n, value, low, high, rfl⟩⟩
  · rintro ⟨w, taken⟩
    obtain ⟨n, value, low, high, -⟩ := wholeOf?_eq_some_iff.mp taken
    exact .double value low high

namespace Binding

theorem bindScalar_cases (path : Path) (kind : Scalar) (v : Json) :
    (∃ b, bindScalar path kind v = .ok b ∧ (Shape.scalar kind).Conforms v ∧ (Shape.scalar kind).Binds v b) ∨
      ∃ reason, bindScalar path kind v = .error ⟨path, reason⟩ ∧ ¬(Shape.scalar kind).Conforms v ∧
        (Shape.scalar kind).FailsFirst v [] reason := by
  unfold bindScalar
  split
  · exact .inl ⟨_, rfl, .string _, .string _⟩
  · exact .inl ⟨_, rfl, .bool _, .bool _⟩
  · exact .inl ⟨_, rfl, .whole _, .whole _⟩
  · rename_i d
    cases taken : wholeOf? d with
    | some w =>
      obtain ⟨n, value, low, high, clipped⟩ := wholeOf?_eq_some_iff.mp taken
      exact .inl ⟨_, rfl, .double value low high, .double value clipped⟩
    | none =>
      have refused : ¬(Shape.scalar .int).Conforms (.number (.double d)) := by
        simp [Shape.conforms_double_iff, taken]
      exact .inr ⟨_, rfl, refused, .notAnInteger refused⟩
  · rename_i string bool whole double
    have refused : ¬(Shape.scalar kind).Conforms v := by
      intro conforms
      cases conforms with
      | string s => exact string s rfl rfl
      | bool b => exact bool b rfl rfl
      | whole n => exact whole n rfl rfl
      | @double d => exact double d rfl rfl
    exact .inr ⟨_, rfl, refused, .otherKind refused fun int d same => double d int same⟩

end Binding

theorem exists_first {α : Type} {Fine Fails : α → Prop} {l : List α} (each : ∀ a ∈ l, Fine a ∨ Fails a) :
    (∀ a ∈ l, Fine a) ∨ ∃ before a after, l = before ++ a :: after ∧ (∀ b ∈ before, Fine b) ∧ Fails a := by
  induction l with
  | nil => exact .inl nofun
  | cons a rest ih =>
    rcases each a List.mem_cons_self with fine | fails
    · rcases ih fun b inside => each b (List.mem_cons_of_mem _ inside) with all | ⟨before, b, after, rfl, fine', fails⟩
      · exact .inl (List.forall_mem_cons.mpr ⟨fine, all⟩)
      · exact .inr ⟨a :: before, b, after, rfl, List.forall_mem_cons.mpr ⟨fine, fine'⟩, fails⟩
    · exact .inr ⟨[], a, rest, rfl, nofun, fails⟩

theorem Shape.conforms_or_failsFirst (s : Shape) :
    ∀ v, s.Conforms v ∨ ∃ place reason, s.FailsFirst v place reason := by
  induction s using Shape.fieldwise with
  | scalar kind =>
    intro v
    rcases bindScalar_cases [] kind v with ⟨b, -, conforms, -⟩ | ⟨reason, -, -, fails⟩
    · exact .inl conforms
    · exact .inr ⟨[], reason, fails⟩
  | model m below =>
    intro v
    cases v with
    | object members =>
      have each : ∀ f ∈ m.fields, f.Conforms members ∨
          (f.required = true ∧ given? f.name members = none ∨
            ∃ v place reason, given? f.name members = some v ∧ f.shape.FailsFirst v place reason) := by
        intro f inside
        cases given : given? f.name members with
        | none =>
          cases required : f.required with
          | true => exact .inr (.inl ⟨rfl, rfl⟩)
          | false => exact .inl ⟨by simp [required], by simp [given]⟩
        | some v =>
          rcases below f inside v with conforms | ⟨place, reason, fails⟩
          · exact .inl ⟨by simp [given], by simpa [given] using conforms⟩
          · exact .inr (.inr ⟨v, place, reason, rfl, fails⟩)
      rcases exists_first each with all | ⟨before, f, after, parts, fine, ⟨required, gone⟩ | failure⟩
      · exact .inl (.object (fun f inside => (all f inside).required) fun f inside => (all f inside).shape)
      · exact .inr ⟨_, _, .missing parts fine required gone⟩
      · obtain ⟨v, place, reason, given, fails⟩ := failure
        exact .inr ⟨_, _, .field parts fine given fails⟩
    | _ => exact .inr ⟨_, _, .notAnObject (by simp)⟩
  | array item below =>
    intro v
    cases v with
    | array items =>
      rcases exists_first fun v (_ : v ∈ items) => below v with all | ⟨before, v, after, rfl, fine, failure⟩
      · exact .inl (.array all)
      · obtain ⟨place, reason, fails⟩ := failure
        exact .inr ⟨_, _, .item fine fails⟩
    | _ => exact .inr ⟨_, _, .notAnArray (by simp)⟩

theorem Shape.Conforms.bindAt {s : Shape} {v : Json} (conforms : s.Conforms v) (path : Path) :
    ∃ b, s.bindAt path v = .ok b := by
  have scalar {kind : Scalar} {v : Json} (conforms : (Shape.scalar kind).Conforms v) (path : Path) :
      ∃ b, (Shape.scalar kind).bindAt path v = .ok b := by
    rw [Shape.bindAt_scalar]
    rcases bindScalar_cases path kind v with ⟨b, binds, -⟩ | ⟨reason, -, refused, -⟩
    · exact ⟨b, binds⟩
    · exact absurd conforms refused
  induction conforms generalizing path with
  | string s => exact scalar (.string s) path
  | bool b => exact scalar (.bool b) path
  | whole n => exact scalar (.whole n) path
  | double value low high => exact scalar (.double value low high) path
  | @object m members required _ ih =>
    obtain ⟨out, done⟩ := Field.bindAll_append required ih path []
    have done' := done []
    rw [List.append_nil] at done'
    exact ⟨.object out, by rw [Shape.bindAt_object, done']; rfl⟩
  | @array item items _ ih =>
    obtain ⟨out, done⟩ := bindItems_append (f := fun path v => item.bindAt path v) ih path 0
    have done' := done []
    rw [List.append_nil] at done'
    exact ⟨.array out, by rw [Shape.bindAt_array, done']; simp [bindItems, Except.map]⟩

theorem Shape.FailsFirst.bindAt {s : Shape} {v : Json} {place : List Segment} {reason : Reason}
    (fails : s.FailsFirst v place reason) (path : Path) :
    s.bindAt path v = .error ⟨place.reverse ++ path, reason⟩ := by
  induction fails generalizing path with
  | @otherKind kind v refused other =>
    rw [Shape.bindAt_scalar]
    rcases bindScalar_cases path kind v with ⟨_, -, conforms, -⟩ | ⟨reason, failed, -, fails⟩
    · exact absurd conforms refused
    · cases fails with
      | otherKind => exact failed
      | notAnInteger => exact absurd rfl (other rfl _)
  | @notAnInteger d refused =>
    rw [Shape.bindAt_scalar]
    rcases bindScalar_cases path .int (.number (.double d)) with ⟨_, -, conforms, -⟩ | ⟨reason, failed, -, fails⟩
    · exact absurd conforms refused
    · cases fails with
      | otherKind _ other => exact absurd rfl (other rfl d)
      | notAnInteger => exact failed
  | notAnObject other => exact Shape.bindAt_not_object _ other
  | @missing m members before after f parts fine required gone =>
    obtain ⟨bound, same⟩ := Field.bindAll_append (fun g inside => (fine g inside).required)
      (fun g inside v given => ((fine g inside).shape v given).bindAt) path []
    rw [Shape.bindAt_object, parts, same, Field.bindAll_of_none gone, required]
    rfl
  | @field m members before after f v place reason parts fine given _ ih =>
    obtain ⟨bound, same⟩ := Field.bindAll_append (fun g inside => (fine g inside).required)
      (fun g inside v given => ((fine g inside).shape v given).bindAt) path []
    rw [Shape.bindAt_object, parts, same, Field.bindAll_of_error given (ih _)]
    simp [Except.map]
  | notAnArray other => exact Shape.bindAt_not_array _ other
  | @item item before after v place reason fine _ ih =>
    obtain ⟨out, same⟩ := bindItems_append (f := fun path v => item.bindAt path v)
      (fun w inside => (fine w inside).bindAt) path 0
    rw [Shape.bindAt_array, same, bindItems_cons_error (ih _)]
    simp [Except.map]

theorem Shape.bindAt_ok_iff {s : Shape} {v : Json} {path : Path} :
    (∃ b, s.bindAt path v = .ok b) ↔ s.Conforms v := by
  refine ⟨fun ⟨b, binds⟩ => ?_, fun conforms => conforms.bindAt path⟩
  rcases s.conforms_or_failsFirst v with conforms | ⟨place, reason, fails⟩
  · exact conforms
  · rw [fails.bindAt] at binds
    cases binds

theorem Shape.bindAt_error_iff {s : Shape} {v : Json} {path : Path} {e : Mismatch} :
    s.bindAt path v = .error e ↔ ∃ place, e.path = place.reverse ++ path ∧ s.FailsFirst v place e.reason := by
  constructor
  · intro failed
    rcases s.conforms_or_failsFirst v with conforms | ⟨place, reason, fails⟩
    · obtain ⟨b, binds⟩ := conforms.bindAt path
      rw [binds] at failed
      cases failed
    · rw [fails.bindAt] at failed
      cases failed
      exact ⟨place, rfl, fails⟩
  · rintro ⟨place, way, fails⟩
    obtain ⟨way', reason⟩ := e
    obtain rfl : way' = place.reverse ++ path := way
    exact fails.bindAt path

theorem Field.keys_bindAll {path : Path} {members bound out : List (String × Json)} {fs : List Field}
    (unique : (bound.map (·.1) ++ fs.map (·.name)).Nodup) (done : Field.bindAll path members bound fs = .ok out) :
    out.map (·.1) = bound.map (·.1) ++ (fs.filter fun f => (given? f.name members).isSome).map (·.name) := by
  induction fs generalizing bound with
  | nil =>
    cases done
    simp
  | cons f rest ih =>
    cases given : given? f.name members with
    | none =>
      rw [Field.bindAll_of_none given] at done
      split at done
      · cases done
      · have unique' : (bound.map (·.1) ++ rest.map (·.name)).Nodup :=
          unique.sublist (List.Sublist.append_left (List.sublist_cons_self _ _) _)
        rw [ih unique' done]
        simp [given]
    | some v =>
      cases binds : f.shape.bindAt (.field f.name :: path) v with
      | error e =>
        rw [Field.bindAll_of_error given binds] at done
        cases done
      | ok b =>
        rw [Field.bindAll_of_ok given binds] at done
        have free : f.name ∉ bound.map (·.1) := fun taken =>
          (List.nodup_append.mp unique).2.2 _ taken _ (by simp) rfl
        rw [put_append free] at done
        rw [ih (by simpa using unique) done]
        simp [given]

theorem Shape.binds_of_bindAt {s : Shape} (distinct : s.Each Model.Distinct) :
    ∀ {path : Path} {v b : Json}, s.bindAt path v = .ok b → s.Binds v b := by
  induction s using Shape.fieldwise with
  | scalar kind =>
    intro path v b binds
    rw [Shape.bindAt_scalar] at binds
    rcases bindScalar_cases path kind v with ⟨b', binds', -, form⟩ | ⟨reason, failed, -⟩
    · rw [binds'] at binds
      cases binds
      exact form
    · rw [failed] at binds
      cases binds
  | model m below =>
    intro path v b binds
    rcases Shape.bindAt_cases binds with ⟨_, ⟨⟩, -⟩ | ⟨_, members, out, ⟨⟩, rfl, done, rfl⟩ | ⟨_, _, _, ⟨⟩, -⟩
    have unique : (m.fields.map (·.name)).Nodup := distinct.here
    refine .object (by simpa using Field.keys_bindAll (by simpa using unique) done) ?_
    intro f inside v b given found
    obtain none | ⟨g, inside', raw, named, present, binds⟩ := Field.of_find?_bindAll done found
    · cases none
    · obtain rfl : g = f := List.inj_on_of_nodup_map unique inside' inside named
      obtain rfl : raw = v := Option.some.inj (present.symm.trans (given?_eq_some_iff.mp given).1)
      exact below g inside (distinct.field inside) binds
  | array item below =>
    intro path v b binds
    rcases Shape.bindAt_cases binds with ⟨_, ⟨⟩, -⟩ | ⟨_, _, _, ⟨⟩, -⟩ | ⟨_, items, out, ⟨⟩, rfl, done, rfl⟩
    refine .array (length_bindItems done) ?_
    intro i v b inside found
    obtain ⟨raw, present, binds⟩ := of_getElem?_bindItems done found
    obtain rfl : raw = v := Option.some.inj (present.symm.trans inside)
    exact below distinct.item binds

theorem Shape.Binds.unique {s : Shape} (distinct : s.Each Model.Distinct) :
    ∀ {v b c : Json}, s.Binds v b → s.Binds v c → b = c := by
  induction s using Shape.fieldwise with
  | scalar kind =>
    intro v b c first second
    cases first with
    | string | bool | whole =>
      cases second
      rfl
    | @double d n w value clipped =>
      cases second with
      | @double _ n' w' value' clipped' =>
        obtain rfl : n = n' := by exact_mod_cast value.symm.trans value'
        obtain ⟨k, fits⟩ := w
        obtain ⟨k', fits'⟩ := w'
        obtain rfl : k = k' := clipped.trans clipped'.symm
        rfl
  | model m below =>
    intro v b c first second
    cases first with
    | @object _ members bound keys each =>
      cases second with
      | @object _ _ bound' keys' each' =>
        have unique : (bound.map (·.1)).Nodup := by
          rw [keys]
          exact distinct.here.sublist (List.filter_sublist.map _)
        refine congrArg Json.object (members_ext unique (keys.trans keys'.symm) fun key v w found found' => ?_)
        have inside : key ∈ bound.map (·.1) := List.mem_map.mpr ⟨_, mem_of_find? found, rfl⟩
        rw [keys] at inside
        obtain ⟨f, kept, rfl⟩ := List.mem_map.mp inside
        obtain ⟨inside, given⟩ := List.mem_filter.mp kept
        obtain ⟨raw, given⟩ := Option.isSome_iff_exists.mp given
        exact below f inside (distinct.field inside) (each f inside raw v given found)
          (each' f inside raw w given found')
  | array item below =>
    intro v b c first second
    cases first with
    | @array _ items bound length each =>
      cases second with
      | @array _ _ bound' length' each' =>
        refine congrArg Json.array (List.ext_getElem (length.trans length'.symm) fun i inside inside' => ?_)
        have given : i < items.length := length ▸ inside
        exact below distinct.item (each i _ _ (List.getElem?_eq_getElem given) (List.getElem?_eq_getElem inside))
          (each' i _ _ (List.getElem?_eq_getElem given) (List.getElem?_eq_getElem inside'))

/-- The place of a failure is one of the value, where there is what does not conform, or that of a member that is
required and not given. -/
theorem Shape.FailsFirst.at? {s : Shape} {v : Json} {place : List Segment} {reason : Reason}
    (fails : s.FailsFirst v place reason) :
    (∃ raw t, v.at? place = some raw ∧ Shape.FailsFirst t raw [] reason) ∨
      reason = .missing ∧ (v.at? place = none ∨ v.at? place = some .null) := by
  induction fails with
  | otherKind refused other => exact .inl ⟨_, _, rfl, .otherKind refused other⟩
  | notAnInteger refused => exact .inl ⟨_, _, rfl, .notAnInteger refused⟩
  | notAnObject other => exact .inl ⟨_, _, rfl, .notAnObject other⟩
  | @notAnArray item _ other => exact .inl ⟨_, .array item, rfl, .notAnArray other⟩
  | missing _ _ _ gone =>
    rcases given?_eq_none_iff.mp gone with none | null
    · exact .inr ⟨rfl, .inl (by simp [Json.at?, none])⟩
    · exact .inr ⟨rfl, .inr (by simp [Json.at?, null])⟩
  | field _ _ given _ ih =>
    simpa [Json.at?, (given?_eq_some_iff.mp given).1] using ih
  | item _ _ ih => simpa [Json.at?] using ih

/-- The way to a failure goes along the names of the fields. -/
theorem Shape.FailsFirst.plain {s : Shape} {v : Json} {place : List Segment} {reason : Reason}
    (fails : s.FailsFirst v place reason) (named : s.Each fun t => ∀ f ∈ t.fields, PlainName f.name) :
    PlainPath place := by
  have cons {step : Segment} {rest : List Segment} (first : ∀ name, step = .field name → PlainName name)
      (later : PlainPath rest) : PlainPath (step :: rest) := by
    intro name inside
    rcases List.mem_cons.mp inside with same | inside
    · exact first name same.symm
    · exact later name inside
  induction fails with
  | otherKind | notAnInteger | notAnObject | notAnArray => exact nofun
  | @missing m _ _ _ f parts =>
    have inside : f ∈ m.fields := by simp [parts]
    exact cons (fun _ same => by cases same; exact named.here f inside) nofun
  | @field m _ _ _ f _ _ _ parts _ _ _ ih =>
    have inside : f ∈ m.fields := by simp [parts]
    exact cons (fun _ same => by cases same; exact named.here f inside) (ih (named.field inside))
  | item _ _ ih => exact cons nofun (ih named.item)

/-- A model binds exactly the payloads that conform to it, each to the members that are declared and given, in the
order of the fields. Of the others it reports the first failure, with its place in the payload, and along plain
names the text of the place is that of no other. -/
theorem Model.bind_conformance {m : Model} (distinct : ∀ t, m.Level t → t.Distinct) (v : Json) :
    ((∃ b, m.bind v = .ok b) ↔ m.Conforms v) ∧
    (∀ b, m.bind v = .ok b ↔ m.Conforms v ∧ m.Binds v b) ∧
    (¬m.Conforms v → ∃ e, m.bind v = .error e) ∧
    (∀ e, m.bind v = .error e ↔ m.FailsFirst v e.path.reverse e.reason) ∧
    (∀ e, m.bind v = .error e →
      (∃ raw t, v.at? e.path.reverse = some raw ∧ Shape.FailsFirst t raw [] e.reason) ∨
        e.reason = .missing ∧ (v.at? e.path.reverse = none ∨ v.at? e.path.reverse = some .null)) ∧
    pathText [] = "$" ∧
    ((∀ t, m.Level t → ∀ f ∈ t.fields, PlainName f.name) → ∀ e, m.bind v = .error e →
      ∀ other, PlainPath other → pathText other = pathText e.path → other = e.path) := by
  have accepted : (∃ b, m.bind v = .ok b) ↔ m.Conforms v := by
    simp only [Model.bind, ← Shape.bindAt_model]
    exact Shape.bindAt_ok_iff
  have binds {b : Json} (bound : m.bind v = .ok b) : m.Binds v b := by
    rw [Model.bind, ← Shape.bindAt_model] at bound
    exact Shape.binds_of_bindAt (Shape.each_model distinct) bound
  have failed (e : Mismatch) : m.bind v = .error e ↔ m.FailsFirst v e.path.reverse e.reason := by
    rw [Model.bind, ← Shape.bindAt_model, Shape.bindAt_error_iff]
    constructor
    · rintro ⟨place, way, fails⟩
      rwa [way, List.append_nil, List.reverse_reverse]
    · exact fun fails => ⟨_, by simp, fails⟩
  refine ⟨accepted, fun b => ?_, fun refused => ?_, failed, fun e => ?_, rfl, fun named e fails other plain same => ?_⟩
  · constructor
    · exact fun bound => ⟨accepted.mp ⟨b, bound⟩, binds bound⟩
    · rintro ⟨conforms, asked⟩
      obtain ⟨c, bound⟩ := accepted.mpr conforms
      rwa [Shape.Binds.unique (Shape.each_model distinct) asked (binds bound)]
  · cases made : m.bind v with
    | ok b => exact absurd (accepted.mp ⟨b, made⟩) refused
    | error e => exact ⟨e, rfl⟩
  · exact fun fails => ((failed e).mp fails).at?
  · have along : PlainPath e.path := by
      have reversed := Shape.FailsFirst.plain ((failed e).mp fails) (Shape.each_model named)
      exact fun name inside => reversed name (List.mem_reverse.mpr inside)
    exact pathText_injective plain along same

def Model.sampleGroups : Model :=
  let group := (Model.named "Group").addField "id" (.scalar .string) true
  (Model.named "Groups").addField "groups" (.array (.model group)) true

/-- The second group lacks its text. -/
def Json.sampleGroups : Json := .object [("groups", .array [.object [("id", .string "a")], .object [("id", .null)]])]

theorem Model.sampleGroups_fails :
    ¬Model.sampleGroups.Conforms .sampleGroups ∧ ∃ e, Model.sampleGroups.bind .sampleGroups = .error e ∧
      Model.sampleGroups.FailsFirst .sampleGroups [.field "groups", .item 1, .field "id"] .missing ∧
      pathText e.path = "groups[1].id" ∧
      ∀ other, PlainPath other → pathText other = "groups[1].id" → other = e.path := by
  have distinct : Model.sampleGroups.AllDistinct := by decide +kernel
  have plain : ∀ t ∈ Model.sampleGroups.parts, ∀ f ∈ t.fields, PlainName f.name := by decide +kernel
  have fails : Model.sampleGroups.bind .sampleGroups =
      .error ⟨[.field "id", .item 1, .field "groups"], .missing⟩ := by
    simp [Model.sampleGroups, Json.sampleGroups, Model.named, Model.addField, Model.bind, Model.bindAt, Field.bindAll,
      Shape.bindAt, bindItems, bindScalar, find?, put]
  have text : pathText [.field "id", .item 1, .field "groups"] = "groups[1].id" := by decide +kernel
  obtain ⟨accepted, -, -, failed, -, -, unique⟩ := Model.bind_conformance distinct.levels .sampleGroups
  refine ⟨fun conforms => ?_, _, fails, (failed _).mp fails, text, fun other way same => ?_⟩
  · obtain ⟨b, bound⟩ := accepted.mpr conforms
    rw [fails] at bound
    cases bound
  · have named (t : Model) (level : Model.sampleGroups.Level t) : ∀ f ∈ t.fields, PlainName f.name :=
      plain t (Model.mem_parts_of_reaches level.reaches)
    exact unique named _ fails other way (same.trans text.symm)

end Schemata
