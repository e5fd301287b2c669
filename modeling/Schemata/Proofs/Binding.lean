import Schemata.Binding
import Schemata.Proofs.Json.Readable
import Schemata.Proofs.Model.Levels

/-! What a model has bound, it binds to itself: nulls are gone, whole numbers are whole, undeclared members
are dropped, and the members stand in the order of the fields. A bound value can be written as a text without
loss, since all of its numbers are whole and no object gives a key twice. -/
namespace Schemata

namespace Binding

/-- A scalar is bound as what it is, and a binary64 value as a whole number. -/
theorem bindScalar_ok {path : Path} {kind : Scalar} {v b : Json} (bound : bindScalar path kind v = .ok b) :
    (∃ s, kind = .string ∧ v = .string s ∧ b = .string s) ∨ (∃ t, kind = .bool ∧ v = .bool t ∧ b = .bool t) ∨
      (∃ n, kind = .int ∧ v = .number (.whole n) ∧ b = .number (.whole n)) ∨
      ∃ d n, kind = .int ∧ v = .number (.double d) ∧ b = .number (.whole n) ∧ wholeOf? d = some n := by
  unfold bindScalar at bound
  split at bound
  · cases bound
    exact .inl ⟨_, rfl, rfl, rfl⟩
  · cases bound
    exact .inr (.inl ⟨_, rfl, rfl, rfl⟩)
  · cases bound
    exact .inr (.inr (.inl ⟨_, rfl, rfl, rfl⟩))
  · split at bound
    · rename_i n taken
      cases bound
      exact .inr (.inr (.inr ⟨_, n, rfl, rfl, rfl, taken⟩))
    · cases bound
  · cases bound

theorem bindScalar_again {path : Path} {kind : Scalar} {v b : Json}
    (bound : bindScalar path kind v = .ok b) (path' : Path) : bindScalar path' kind b = .ok b := by
  obtain ⟨s, rfl, -, rfl⟩ | ⟨t, rfl, -, rfl⟩ | ⟨n, rfl, -, rfl⟩ | ⟨d, n, rfl, -, rfl, -⟩ := bindScalar_ok bound <;> rfl

theorem bindScalar_ne_null {path : Path} {kind : Scalar} {v b : Json}
    (bound : bindScalar path kind v = .ok b) : b ≠ .null := by
  rintro rfl
  have again := bindScalar_again bound path
  cases kind <;> simp [bindScalar] at again

theorem bindScalar_plain {path : Path} {kind : Scalar} {v b : Json} (bound : bindScalar path kind v = .ok b) :
    b.Plain := by
  obtain ⟨s, -, -, rfl⟩ | ⟨t, -, -, rfl⟩ | ⟨n, -, -, rfl⟩ | ⟨d, n, -, -, rfl, -⟩ := bindScalar_ok bound <;>
    exact ⟨trivial, trivial⟩

/-- Of a list that is bound the first item is bound, and then the others. -/
theorem bindItems_cons {f : Path → Json → Except Mismatch Json} {path : Path} {index : Nat} {v : Json}
    {rest out : List Json} (bound : bindItems f path index (v :: rest) = .ok out) :
    ∃ b more, f (.item index :: path) v = .ok b ∧ bindItems f path (index + 1) rest = .ok more ∧ out = b :: more := by
  unfold bindItems at bound
  split at bound
  · cases bound
  · rename_i b first
    split at bound
    · cases bound
    · rename_i more later
      cases bound
      exact ⟨b, more, first, later, rfl⟩

theorem bindItems_again {f : Path → Json → Except Mismatch Json} {path : Path}
    (again : ∀ p v b, f p v = .ok b → ∀ p', f p' b = .ok b) {index : Nat} {items out : List Json}
    (bound : bindItems f path index items = .ok out) (path' : Path) (index' : Nat) :
    bindItems f path' index' out = .ok out := by
  induction items generalizing index index' out with
  | nil => cases bound; rfl
  | cons v rest ih =>
    obtain ⟨b, more, first, later, rfl⟩ := bindItems_cons bound
    have first' := again _ _ _ first (.item index' :: path')
    have later' := ih later (index' + 1)
    simp [bindItems, first', later']

theorem bindItems_plain {f : Path → Json → Except Mismatch Json} {path : Path}
    (plain : ∀ p v b, f p v = .ok b → b.Plain) {index : Nat} {items out : List Json}
    (bound : bindItems f path index items = .ok out) : ∀ b ∈ out, b.Plain := by
  induction items generalizing index out with
  | nil =>
    cases bound
    exact nofun
  | cons v rest ih =>
    obtain ⟨b, more, first, later, rfl⟩ := bindItems_cons bound
    exact List.forall_mem_cons.mpr ⟨plain _ _ _ first, ih later⟩

end Binding

open Binding

/-- A field is passed over, or what it holds is bound. -/
theorem Field.bindAll_cons {path : Path} {members bound out : List (String × Json)} {f : Field}
    {rest : List Field} (done : Field.bindAll path members bound (f :: rest) = .ok out) :
    ((Json.find? f.name members = none ∨ Json.find? f.name members = some .null) ∧
        f.required = false ∧ Field.bindAll path members bound rest = .ok out) ∨
      ∃ raw v, Json.find? f.name members = some raw ∧ raw ≠ .null ∧
        f.shape.bindAt (.field f.name :: path) raw = .ok v ∧
        Field.bindAll path members (Json.put f.name v bound) rest = .ok out := by
  obtain ⟨name, shape, required⟩ := f
  unfold Field.bindAll at done
  split at done
  · rename_i absent
    split at done
    · cases done
    · exact .inl ⟨.inl absent, by simp_all, done⟩
  · rename_i absent
    split at done
    · cases done
    · exact .inl ⟨.inr absent, by simp_all, done⟩
  · rename_i raw nonnull present
    split at done
    · cases done
    · rename_i v bindsTo
      exact .inr ⟨raw, v, present, nonnull, bindsTo, done⟩

theorem Field.bindAll_absent {path : Path} {members bound : List (String × Json)} {f : Field}
    {rest : List Field} (absent : Json.find? f.name members = none) (optional : f.required = false) :
    Field.bindAll path members bound (f :: rest) = Field.bindAll path members bound rest := by
  obtain ⟨name, shape, required⟩ := f
  simp_all [Field.bindAll]

theorem Field.bindAll_present {path : Path} {members bound : List (String × Json)} {f : Field}
    {rest : List Field} {raw v : Json} (present : Json.find? f.name members = some raw)
    (nonnull : raw ≠ .null) (bindsTo : f.shape.bindAt (.field f.name :: path) raw = .ok v) :
    Field.bindAll path members bound (f :: rest) =
      Field.bindAll path members (Json.put f.name v bound) rest := by
  obtain ⟨name, shape, required⟩ := f
  cases raw <;> simp_all [Field.bindAll]

/-- Binding the remaining fields leaves members under other names alone. -/
theorem Field.find?_bindAll {path : Path} {members bound out : List (String × Json)} {fs : List Field}
    (done : Field.bindAll path members bound fs = .ok out) {key : String}
    (free : key ∉ fs.map (·.name)) : Json.find? key out = Json.find? key bound := by
  induction fs generalizing bound with
  | nil => cases done; rfl
  | cons f rest ih =>
    have apart : key ≠ f.name := fun e => free (by simp [e])
    have free' : key ∉ rest.map (·.name) := fun m => free (List.mem_cons_of_mem _ m)
    rcases Field.bindAll_cons done with ⟨_, _, later⟩ | ⟨_, v, _, _, _, later⟩
    · exact ih later free'
    · rw [ih later free', Json.find?_put_other apart]

theorem Shape.bindAt_ne_null {path : Path} {s : Shape} {v b : Json} (bound : s.bindAt path v = .ok b) :
    b ≠ .null := by
  cases s with
  | scalar kind => exact bindScalar_ne_null (by simpa [Shape.bindAt] using bound)
  | model target =>
    obtain ⟨name, description, fields, definitions⟩ := target
    cases v <;> simp only [Shape.bindAt, Model.bindAt] at bound <;> try cases bound
    split at bound <;> cases bound
    simp
  | array item =>
    cases v <;> simp only [Shape.bindAt] at bound <;> try cases bound
    split at bound <;> cases bound
    simp

mutual
theorem Model.bindAt_again : ∀ {m : Model}, (Shape.model m).Each Model.Distinct → ∀ {path : Path} {v b : Json},
    m.bindAt path v = .ok b → ∀ path', m.bindAt path' b = .ok b
  | ⟨name, description, fields, definitions⟩, distinct, path, v, b, bound, path' => by
    cases v <;> simp only [Model.bindAt] at bound <;> try cases bound
    rename_i members
    split at bound
    · cases bound
    · rename_i out done
      cases bound
      have again := Field.bindAll_again fields distinct.here (fun f inside => distinct.field inside)
        (by simp [Json.find?]) done
        path' out fun _ _ => rfl
      simp [Model.bindAt, again]

/-- The second pass reads the members that the first one leaves under the names of the fields. -/
theorem Field.bindAll_again : ∀ (fs : List Field), (fs.map (·.name)).Nodup →
    (∀ f ∈ fs, f.shape.Each Model.Distinct) → ∀ {path : Path} {members bound out : List (String × Json)},
    (∀ f ∈ fs, Json.find? f.name bound = none) → Field.bindAll path members bound fs = .ok out →
    ∀ path' members', (∀ f ∈ fs, Json.find? f.name members' = Json.find? f.name out) →
    Field.bindAll path' members' bound fs = .ok out
  | [], _, _, _, _, _, _, _, done, _, _, _ => by cases done; rfl
  | ⟨name, shape, required⟩ :: rest, unique, below, path, members, bound, out, fresh, done, path',
      members', agree => by
    obtain ⟨alone, unique'⟩ := List.nodup_cons.mp unique
    have below' : ∀ g ∈ rest, g.shape.Each Model.Distinct := fun g member => below g (List.mem_cons_of_mem _ member)
    have agree' : ∀ g ∈ rest, Json.find? g.name members' = Json.find? g.name out :=
      fun g member => agree g (List.mem_cons_of_mem _ member)
    have here : Json.find? name members' = Json.find? name out := agree _ List.mem_cons_self
    rcases Field.bindAll_cons done with ⟨_, optional, later⟩ | ⟨raw, w, _, _, bindsTo, later⟩
    · have gone : Json.find? name members' = none := by
        rw [here, Field.find?_bindAll later alone]
        exact fresh _ List.mem_cons_self
      rw [Field.bindAll_absent gone optional]
      exact Field.bindAll_again rest unique' below'
        (fun g member => fresh g (List.mem_cons_of_mem _ member)) later path' members' agree'
    · have kept : Json.find? name members' = some w := by
        rw [here, Field.find?_bindAll later alone, Json.find?_put_same]
      have again := Shape.bindAt_again shape (below _ List.mem_cons_self) bindsTo (.field name :: path')
      rw [Field.bindAll_present kept (Shape.bindAt_ne_null bindsTo) again]
      refine Field.bindAll_again rest unique' below' ?_ later path' members' agree'
      intro g member
      have inside : g.name ∈ rest.map (·.name) := List.mem_map_of_mem member
      have apart : g.name ≠ name := fun same => alone (same ▸ inside)
      rw [Json.find?_put_other apart]
      exact fresh g (List.mem_cons_of_mem _ member)

theorem Shape.bindAt_again : ∀ (s : Shape), s.Each Model.Distinct → ∀ {path : Path} {v b : Json},
    s.bindAt path v = .ok b → ∀ path', s.bindAt path' b = .ok b
  | .scalar kind, _, path, v, b, bound, path' => by
    simp only [Shape.bindAt] at bound ⊢
    exact bindScalar_again bound path'
  | .model target, distinct, path, v, b, bound, path' => by
    simp only [Shape.bindAt] at bound ⊢
    exact Model.bindAt_again distinct bound path'
  | .array item, distinct, path, v, b, bound, path' => by
    cases v <;> simp only [Shape.bindAt] at bound <;> try cases bound
    split at bound
    · cases bound
    · rename_i items out done
      cases bound
      have again := bindItems_again
        (fun p w c bindsTo p' => Shape.bindAt_again item distinct.item bindsTo p') done path' 0
      simp [Shape.bindAt, again]
end

mutual
theorem Model.bindAt_plain : ∀ (m : Model) {path : Path} {v b : Json}, m.bindAt path v = .ok b → b.Plain
  | ⟨name, description, fields, definitions⟩, path, v, b, bound => by
    cases v <;> simp only [Model.bindAt] at bound <;> try cases bound
    split at bound
    · cases bound
    · rename_i out done
      cases bound
      have none : (([] : List (String × Json)).map (·.1)).Nodup := List.nodup_nil
      obtain ⟨unique, below⟩ := Field.bindAll_plain fields none (fun _ inside => absurd inside List.not_mem_nil) done
      exact Json.plain_object unique below

/-- The members that are bound have different keys: a key is put in its place or at the end. -/
theorem Field.bindAll_plain : ∀ (fs : List Field) {path : Path} {members bound out : List (String × Json)},
    (bound.map (·.1)).Nodup → (∀ member ∈ bound, member.2.Plain) →
    Field.bindAll path members bound fs = .ok out →
    (out.map (·.1)).Nodup ∧ ∀ member ∈ out, member.2.Plain
  | [], _, _, _, _, unique, below, done => by
    cases done
    exact ⟨unique, below⟩
  | ⟨name, shape, required⟩ :: rest, path, members, bound, out, unique, below, done => by
    rcases Field.bindAll_cons done with ⟨_, _, later⟩ | ⟨raw, v, _, _, bindsTo, later⟩
    · exact Field.bindAll_plain rest unique below later
    · have plain := Shape.bindAt_plain shape bindsTo
      refine Field.bindAll_plain rest (Json.nodup_put name v unique) (fun member inside => ?_) later
      rcases Json.mem_of_mem_put inside with rfl | old
      · exact plain
      · exact below member old

theorem Shape.bindAt_plain : ∀ (s : Shape) {path : Path} {v b : Json}, s.bindAt path v = .ok b → b.Plain
  | .scalar kind, path, v, b, bound => by
    simp only [Shape.bindAt] at bound
    exact bindScalar_plain bound
  | .model target, path, v, b, bound => by
    simp only [Shape.bindAt] at bound
    exact Model.bindAt_plain target bound
  | .array item, path, v, b, bound => by
    cases v <;> simp only [Shape.bindAt] at bound <;> try cases bound
    split at bound
    · cases bound
    · rename_i items out done
      cases bound
      exact Json.plain_array (bindItems_plain (fun p w c bindsTo => Shape.bindAt_plain item bindsTo) done)
end

theorem Model.bind_plain {m : Model} {v b : Json} (bound : m.bind v = .ok b) : b.Plain := m.bindAt_plain bound

/-- Binding is idempotent, the order of the members included. -/
theorem Model.bind_again {m : Model} (distinct : m.AllDistinct) {v b : Json} (bound : m.bind v = .ok b) :
    m.bind b = .ok b := Model.bindAt_again (Shape.each_model distinct.levels) bound []

end Schemata
