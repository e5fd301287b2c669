import Schemata.Proofs.Model.FreeKey
import Schemata.Proofs.Model.Reach

/-! The entries of a schema document. All that hoisting does is to add models below the root, each under a
free key and after everything that it leads to; every fact about the entries comes from that. -/
namespace Schemata

/-- Some reached model would have `t` stored under `key`. -/
def Model.Asks (root : Model) (key : String) (t : Model) : Prop := ∃ s, root.Reaches s ∧ s.Offers key t

theorem Model.Asks.below {root t : Model} {key : String} (asks : root.Asks key t) : root.Below t := by
  obtain ⟨s, reached, offers⟩ := asks
  exact .tail' reached ⟨key, offers⟩

theorem Model.Asks.lift {root m t : Model} {key : String} (reached : root.Reaches m)
    (asks : m.Asks key t) : root.Asks key t := by
  obtain ⟨s, further, offers⟩ := asks
  exact ⟨s, reached.trans further, offers⟩

theorem Model.Offers.asks {m t : Model} {key : String} (offers : m.Offers key t) : m.Asks key t :=
  ⟨m, .refl, offers⟩

theorem Shape.sizeOf_target {s : Shape} {t : Model} (target : s.target? = some t) :
    sizeOf t < sizeOf s := by
  fun_induction Shape.target? s with
  | case1 => cases target
  | case2 => cases target; simp
  | case3 item ih => have := ih target; simp; omega

theorem Model.Leads.sizeOf_lt {m t : Model} (leads : m.Leads t) : sizeOf t < sizeOf m := by
  obtain ⟨key, offers⟩ := leads
  rcases m with ⟨name, description, fields, definitions⟩
  cases offers with
  | definition member =>
    rename_i d
    have inside := List.sizeOf_lt_of_mem member
    rcases d with ⟨k, t⟩
    simp at inside ⊢
    omega
  | field member target =>
    rename_i f
    have inside := List.sizeOf_lt_of_mem member
    have smaller := Shape.sizeOf_target target
    rcases f with ⟨n, s, r⟩
    simp at inside smaller ⊢
    omega

/-- A model is not part of itself. -/
theorem Model.not_below_self (m : Model) : ¬ m.Below m := by
  intro below
  have smaller : ∀ t, m.Below t → sizeOf t < sizeOf m := by
    intro t path
    induction path with
    | single leads => exact leads.sizeOf_lt
    | tail _ leads ih => exact Nat.lt_trans leads.sizeOf_lt ih
  exact Nat.lt_irrefl _ (smaller m below)

namespace Hoisted

abbrev keys (entries : Hoisted) : List String := entries.map (·.1)

abbrev models (entries : Hoisted) : List Model := entries.map (·.2)

/-- If nothing comes twice among the entries, then neither before one of them, nor that one itself. -/
theorem nodup_before {α : Type} {view : String × Model → α} {entries before after : Hoisted}
    {entry : String × Model} (unique : (entries.map view).Nodup) (parts : entries = before ++ entry :: after) :
    (before.map view).Nodup ∧ view entry ∉ before.map view := by
  rw [parts, List.map_append, List.map_cons, List.nodup_append] at unique
  exact ⟨unique.1, fun again => unique.2.2 _ again _ List.mem_cons_self rfl⟩

/-- Entries grow by models below `root`, each new, under a free key, and after all that it leads to. -/
inductive Grows (root : Model) (out : Hoisted) : Hoisted → Prop where
  | done : Grows root out out
  | add {mid : Hoisted} {key : String} {m : Model} : Grows root out mid → root.Asks key m →
      m ∉ mid.models → (∀ t, m.Leads t → t ∈ mid.models) →
      Grows root out (mid ++ [(freeKey key mid.keys, m)])

namespace Grows

variable {root : Model} {a b c out : Hoisted}

theorem trans (first : Grows root a b) (second : Grows root b c) : Grows root a c := by
  induction second with
  | done => exact first
  | add _ asks fresh ready ih => exact .add ih asks fresh ready

theorem lift {m : Model} (reached : root.Reaches m) (grows : Grows m a b) : Grows root a b := by
  induction grows with
  | done => exact .done
  | add _ asks fresh ready ih => exact .add ih (asks.lift reached) fresh ready

theorem subset (grows : Grows root a b) : a.models ⊆ b.models := by
  induction grows with
  | done => exact List.Subset.refl _
  | add _ _ _ _ ih =>
    intro t member
    simpa using .inl (by simpa using ih member)

theorem new_below (grows : Grows root a b) {t : Model} (member : t ∈ b.models) :
    t ∈ a.models ∨ root.Below t := by
  induction grows with
  | done => exact .inl member
  | add _ asks _ _ ih =>
    rw [models, List.map_append, List.mem_append] at member
    rcases member with earlier | last
    · exact ih earlier
    · simp only [List.map_cons, List.map_nil, List.mem_singleton] at last
      exact .inr (last ▸ asks.below)

theorem nodup_keys (grows : Grows root [] out) : out.keys.Nodup := by
  induction grows with
  | done => exact List.nodup_nil
  | @add mid key m _ _ _ _ ih =>
    rw [keys, List.map_append, List.nodup_append]
    refine ⟨ih, by simp, ?_⟩
    intro k member k' last
    simp only [List.map_cons, List.map_nil, List.mem_singleton] at last
    rintro rfl
    exact freeKey_not_mem key mid.keys (last ▸ member)

theorem nodup_models (grows : Grows root [] out) : out.models.Nodup := by
  induction grows with
  | done => exact List.nodup_nil
  | add _ _ fresh _ ih =>
    rw [models, List.map_append, List.nodup_append]
    refine ⟨ih, by simp, ?_⟩
    intro t member t' last
    simp only [List.map_cons, List.map_nil, List.mem_singleton] at last
    rintro rfl
    exact fresh (last ▸ member)

/-- Each entry's key is the free form of one that some reached model offers. -/
theorem asked (grows : Grows root [] out) {entry : String × Model} (member : entry ∈ out) :
    ∃ key taken, root.Asks key entry.2 ∧ entry.1 = freeKey key taken := by
  induction grows with
  | done => cases member
  | @add mid key m _ asks _ _ ih =>
    rcases List.mem_append.mp member with earlier | last
    · exact ih earlier
    · rw [List.mem_singleton.mp last]
      exact ⟨key, mid.keys, asks, rfl⟩

/-- What an entry leads to stands before it. -/
theorem ordered (grows : Grows root [] out) {before after : Hoisted} {entry : String × Model}
    (parts : out = before ++ entry :: after) {t : Model} (leads : entry.2.Leads t) :
    t ∈ before.models := by
  induction grows generalizing after with
  | done => simp at parts
  | add _ _ _ ready ih =>
    rcases List.eq_nil_or_concat after with rfl | ⟨after', last, rfl⟩
    · obtain ⟨rfl, same⟩ := List.append_inj' parts rfl
      obtain ⟨rfl, -⟩ := List.cons.inj same
      exact ready t leads
    · rw [List.concat_eq_append, ← List.cons_append, ← List.append_assoc] at parts
      exact ih (List.append_inj' parts rfl).1

end Grows

end Hoisted

open Hoisted

mutual
theorem Model.hoist_grows : ∀ (m root : Model) (key : String) (out : Hoisted), root.Asks key m →
    Grows root out (m.hoist key out) ∧ m ∈ models (m.hoist key out)
  | ⟨name, description, fields, definitions⟩, root, key, out, asks => by
    unfold Model.hoist
    split
    · rename_i found
      exact ⟨.done, by simpa [List.any_eq_true] using found⟩
    · rename_i missing
      let m : Model := ⟨name, description, fields, definitions⟩
      have first := Definition.hoistAll_grows definitions m out fun d member =>
        (Model.Offers.definition member).asks
      have second := Field.hoistAll_grows fields m (Definition.hoistAll out definitions)
        fun f member t target => (Model.Offers.field member target).asks
      have both := first.1.trans second.1
      have fresh : m ∉ models (Field.hoistAll (Definition.hoistAll out definitions) fields) := by
        intro member
        rcases both.new_below member with old | below
        · exact missing (by simpa [List.any_eq_true] using old)
        · exact m.not_below_self below
      have ready : ∀ t, m.Leads t →
          t ∈ models (Field.hoistAll (Definition.hoistAll out definitions) fields) := by
        rintro t ⟨_, offers⟩
        cases offers with
        | definition member => exact second.1.subset (first.2 _ member)
        | field member target => exact second.2 _ member t target
      exact ⟨.add (both.lift asks.below.to_reflTransGen) asks fresh ready, by simp⟩

theorem Definition.hoistAll_grows : ∀ (ds : List Definition) (root : Model) (out : Hoisted),
    (∀ d ∈ ds, root.Asks d.key d.model) →
    Grows root out (Definition.hoistAll out ds) ∧
      ∀ d ∈ ds, d.model ∈ models (Definition.hoistAll out ds)
  | [], root, out, _ => ⟨.done, by simp⟩
  | ⟨key, model⟩ :: rest, root, out, asks => by
    have first := Model.hoist_grows model root key out (asks _ List.mem_cons_self)
    have later := Definition.hoistAll_grows rest root (model.hoist key out)
      fun d member => asks d (List.mem_cons_of_mem _ member)
    refine ⟨first.1.trans later.1, ?_⟩
    intro d member
    rcases List.mem_cons.mp member with rfl | member
    · exact later.1.subset first.2
    · exact later.2 d member

theorem Field.hoistAll_grows : ∀ (fs : List Field) (root : Model) (out : Hoisted),
    (∀ f ∈ fs, ∀ t, f.shape.target? = some t → root.Asks t.name t) →
    Grows root out (Field.hoistAll out fs) ∧
      ∀ f ∈ fs, ∀ t, f.shape.target? = some t → t ∈ models (Field.hoistAll out fs)
  | [], root, out, _ => ⟨.done, by simp⟩
  | ⟨name, shape, required⟩ :: rest, root, out, asks => by
    have first := Shape.hoist_grows shape root out (asks _ List.mem_cons_self)
    have later := Field.hoistAll_grows rest root (shape.hoist out)
      fun f member => asks f (List.mem_cons_of_mem _ member)
    refine ⟨first.1.trans later.1, ?_⟩
    intro f member t target
    rcases List.mem_cons.mp member with rfl | member
    · exact later.1.subset (first.2 t target)
    · exact later.2 f member t target

theorem Shape.hoist_grows : ∀ (s : Shape) (root : Model) (out : Hoisted),
    (∀ t, s.target? = some t → root.Asks t.name t) →
    Grows root out (s.hoist out) ∧ ∀ t, s.target? = some t → t ∈ models (s.hoist out)
  | .scalar kind, root, out, _ => ⟨.done, by simp [Shape.target?]⟩
  | .model target, root, out, asks => by
    have first := Model.hoist_grows target root target.name out (asks target rfl)
    refine ⟨first.1, ?_⟩
    intro t same
    cases same
    exact first.2
  | .array item, root, out, asks => Shape.hoist_grows item root out asks
end

/-- The entries of a root grow from none, and whatever the root leads to has one. -/
theorem Model.hoisted_grows (m : Model) : Grows m [] m.hoisted ∧ ∀ t, m.Leads t → t ∈ m.hoisted.models := by
  have first := Definition.hoistAll_grows m.definitions m [] fun d member =>
    (Model.Offers.definition member).asks
  have second := Field.hoistAll_grows m.fields m (Definition.hoistAll [] m.definitions)
    fun f member t target => (Model.Offers.field member target).asks
  refine ⟨first.1.trans second.1, ?_⟩
  rintro t ⟨_, offers⟩
  cases offers with
  | definition member => exact second.1.subset (first.2 _ member)
  | field member target => exact second.2 _ member t target

theorem Model.mem_hoisted (m : Model) {t : Model} (below : m.Below t) : t ∈ m.hoisted.models := by
  -- By induction on the way down: an entry stands after the entries of what it leads to.
  obtain ⟨grows, leads⟩ := m.hoisted_grows
  induction below with
  | single first => exact leads _ first
  | tail _ last ih =>
    obtain ⟨entry, inside, rfl⟩ := List.mem_map.mp ih
    obtain ⟨before, after, parts⟩ := List.append_of_mem inside
    have earlier := grows.ordered parts last
    rw [parts, Hoisted.models, List.map_append, List.mem_append]
    exact .inl earlier

theorem Model.hoist_of_mem {m : Model} {out : Hoisted} (known : m ∈ out.models) (key : String) :
    m.hoist key out = out := by
  obtain ⟨entry, inside, rfl⟩ := List.mem_map.mp known
  rcases entry with ⟨k, ⟨name, description, fields, definitions⟩⟩
  rw [Model.hoist, if_pos (List.any_eq_true.mpr ⟨_, inside, by simp⟩)]

theorem Shape.hoist_of_mem {s : Shape} {out : Hoisted} (known : ∀ t, s.target? = some t → t ∈ out.models) :
    s.hoist out = out := by
  fun_induction Shape.target? s with
  | case1 => rfl
  | case2 target => exact Model.hoist_of_mem (known target rfl) target.name
  | case3 item ih => exact ih known

/-- Fields that lead to entries only add none. -/
theorem Field.hoistAll_of_mem {fs : List Field} {out : Hoisted}
    (known : ∀ f ∈ fs, ∀ t, f.shape.target? = some t → t ∈ out.models) : Field.hoistAll out fs = out := by
  induction fs with
  | nil => rfl
  | cons f rest ih =>
    obtain ⟨name, shape, required⟩ := f
    rw [Field.hoistAll, Shape.hoist_of_mem (known _ List.mem_cons_self)]
    exact ih fun f member => known f (List.mem_cons_of_mem _ member)

/-- Definitions of models with entries add none. -/
theorem Definition.hoistAll_of_mem {ds : List Definition} {out : Hoisted} (known : ∀ d ∈ ds, d.model ∈ out.models) :
    Definition.hoistAll out ds = out := by
  induction ds with
  | nil => rfl
  | cons d rest ih =>
    obtain ⟨key, model⟩ := d
    rw [Definition.hoistAll, Model.hoist_of_mem (known _ List.mem_cons_self)]
    exact ih fun d member => known d (List.mem_cons_of_mem _ member)

/-- After all that it leads to a new model gets one more entry, under its key if that is free. -/
theorem Model.hoist_new {m : Model} {key : String} {out : Hoisted} (fresh : m ∉ out.models)
    (free : key ∉ out.keys) (ready : ∀ t, m.Leads t → t ∈ out.models) : m.hoist key out = out ++ [(key, m)] := by
  obtain ⟨name, description, fields, definitions⟩ := m
  have missing : ¬ (out.any fun entry => entry.2 = ⟨name, description, fields, definitions⟩) = true := by
    simpa [List.any_eq_true] using fresh
  have declared := Definition.hoistAll_of_mem fun d member => ready _ (.definition member)
  have held := Field.hoistAll_of_mem fun f member t target => ready t (.field member target)
  rw [Model.hoist, if_neg missing]
  dsimp only at declared held ⊢
  rw [declared, held, freeKey_of_not_mem free]

theorem Model.below_hoisted {m : Model} {entry : String × Model} (member : entry ∈ m.hoisted) :
    m.Below entry.2 := by
  obtain ⟨key, taken, asks, -⟩ := m.hoisted_grows.1.asked member
  exact asks.below

theorem Model.reaches_hoisted {m : Model} {entry : String × Model} (member : entry ∈ m.hoisted) :
    m.Reaches entry.2 := (Model.below_hoisted member).to_reflTransGen

end Schemata
