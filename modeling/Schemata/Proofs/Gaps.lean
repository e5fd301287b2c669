import Schemata.Proofs.Evolution

/-! Gaps in the histories that a registry answers. A history is read whole, so it has no gap then; one that has
been kept while others wrote lacks their versions, and it has a gap as soon as a greater version is added. -/
namespace Schemata

open ReportingDirectory

/-- With each version the history holds all smaller ones that are on the shelf. -/
def History.Gapless (h : History) (shelf : Shelf) : Prop :=
  ∀ id, h.Has id → ∀ smaller, shelf.get? smaller ≠ none → Key.order smaller id = .lt → h.Has smaller

namespace Shelves

theorem Adds.below {contents : List String} {before after : Shelves} (adds : before.Adds contents after)
    (numbered : ∀ registry name, (before registry name).Numbered) {registry name : String} {id smaller : VersionId}
    (above : (after registry name).get? id ≠ none) (there : (after registry name).get? smaller ≠ none)
    (less : Key.order smaller id = .lt) : (before registry name).get? smaller ≠ none := by
  cases adds with
  | nothing => exact there
  | next request given =>
    rw [get?_put] at there above
    split at there
    · rename_i new
      obtain ⟨rfl, rfl, rfl⟩ := new
      split at above
      · rename_i same
        rw [same.2.2, Key.order_self] at less
        cases less
      · obtain ⟨content, old⟩ := Option.ne_none_iff_exists'.mp above
        have loop := Key.lt_trans less ((numbered _ _).before_next (Table.mem_of_get? old))
        rw [Key.order_self] at loop
        cases loop
    · exact there

end Shelves

namespace Session

def Gapless (w : Session (Faulty Store)) : Prop :=
  ∀ name h r' s', w.registry.history name w.directory = (.ok h, r', s') →
    h.Gapless (w.account.shelf w.registry.name name)

end Session

/-- If the step registers a model whose schema has a history that is kept, that history holds all versions that
are stored below the one that is answered. -/
def Step.Continues (w : Session (Faulty Store)) (step : Step) : Prop :=
  ∀ v, (step.move w).answered? w = some v → ∀ h, w.registry.histories.get? v.name = some h →
    ∀ id, (w.account.shelf w.registry.name v.name).get? id ≠ none → Key.order id v.id = .lt → h.Has id

namespace Session

variable {w : Session (Faulty Store)}

theorem gapless_iff_kept (consistent : w.Consistent) (roomy : w.account.shelf.Roomy) : w.Gapless ↔
    ∀ name h, w.registry.histories.get? name = some h → h.Gapless (w.account.shelf w.registry.name name) := by
  constructor
  · intro gapless name h kept
    refine gapless name h w.registry w.directory ?_
    rw [Registry.history, kept]
  · intro gapless name h r' s' asked
    cases Registry.asks_of_history asked with
    | held kept => exact gapless name h kept
    | read _ _ read =>
      have whole := Registry.readHistory_whole consistent.truthful.kept.1.1 (Nat.lt_succ_of_lt (roomy _ _)) read
      exact fun _ _ smaller there _ => whole.complete smaller there

theorem gapless_step_iff (consistent : w.Consistent) (roomy : w.account.shelf.Roomy) (step : Step)
    (roomy' : (step.run w).1.account.shelf.Roomy) (gapless : w.Gapless) :
    (step.run w).1.Gapless ↔ step.Continues w := by
  have evolves := consistent.step roomy step
  rw [gapless_iff_kept consistent roomy] at gapless
  rw [gapless_iff_kept evolves.consistent roomy']
  have grown := evolves.adds.extends consistent.truthful.numbered
  constructor
  · intro gapless' v answered h kept id there less
    have extended := evolves.extended v h answered kept
    have there' : ((step.run w).1.account.shelf (step.run w).1.registry.name v.name).get? id ≠ none := by
      obtain ⟨content, found⟩ := Option.ne_none_iff_exists'.mp there
      rw [evolves.sameName, grown _ _ _ _ found]
      exact Option.some_ne_none _
    have has := gapless' v.name _ extended v.id ((History.has_insert h v v.id).mpr (.inr rfl)) id there' less
    rcases (History.has_insert h v id).mp has with old | rfl
    · exact old
    · rw [Key.order_self] at less
      cases less
  · intro continues name h' kept' id has smaller there less
    have above : ((step.run w).1.account.shelf (step.run w).1.registry.name name).get? id ≠ none := by
      have mirrors := evolves.consistent.coherent.histories name h' kept'
      obtain ⟨v', held⟩ := has
      have shelved := mirrors.onShelf id v' held
      obtain ⟨own, named, rfl⟩ := mirrors.own id v' held
      rw [← own, ← named, shelved]
      exact Option.some_ne_none _
    rw [evolves.sameName] at above there
    have before := evolves.adds.below consistent.truthful.numbered above there less
    obtain ⟨h, origin, shape⟩ := evolves.retains name h' kept'
    have below : h.Has smaller := by
      rcases origin with kept | whole
      · rcases shape with rfl | ⟨v, answered, rfl, rfl⟩
        · exact gapless name h' kept id has smaller before less
        · rcases (History.has_insert h v id).mp has with old | rfl
          · exact gapless v.name h kept id old smaller before less
          · exact continues v answered h kept smaller before less
      · exact whole.complete smaller before
    rcases shape with rfl | ⟨v, -, -, rfl⟩
    · exact below
    · exact (History.has_insert h v smaller).mpr (.inl below)

section
variable {s : Store} (blank : s.Blank) (accepts : s.Accepts) {faults : List Fault}
  (honest : ∀ fault ∈ faults, fault.Honest) (registry : String) (start : Option String) {steps : List Step}
include blank accepts honest

/-- No history that is answered in a run has a gap if and only if each registration in it finds the history of its
schema complete up to the version that it answers, or finds none that has been kept. -/
theorem always_gapless_iff (roomy : (beginAmid faults registry start s).RoomyFor (·.account.shelf) steps) :
    (beginAmid faults registry start s).Always Gapless steps ↔
      (beginAmid faults registry start s).Throughout Step.Continues steps := by
  have consistent := consistent_beginAmid blank accepts honest registry start
  have none : (beginAmid faults registry start s).Gapless :=
    (gapless_iff_kept consistent roomy.here).mpr fun _ _ kept => by cases kept
  exact always_iff_throughout (fun _ => True) (fun _ _ _ _ _ => trivial)
    (fun _ step consistent roomy roomy' _ gapless => gapless_step_iff consistent roomy step roomy' gapless)
    consistent roomy trivial none

end

def sampleUnread : List Step :=
  [.create sampleMoment ⟨"Shop", "shop.Order", "first", .jsonSchemaDraft4, none⟩,
   .load sampleMoment,
   .update sampleMoment ⟨"Shop", "shop.Order", "second", .jsonSchemaDraft4, none⟩,
   .register sampleMoment ⟨"shop", "Order"⟩ (.named "Order")]

/-- The same, where the history is asked for between the two. -/
def sampleStale : List Step :=
  [.create sampleMoment ⟨"Shop", "shop.Order", "first", .jsonSchemaDraft4, none⟩,
   .load sampleMoment,
   .history "shop.Order",
   .update sampleMoment ⟨"Shop", "shop.Order", "second", .jsonSchemaDraft4, none⟩,
   .register sampleMoment ⟨"shop", "Order"⟩ (.named "Order")]

theorem sampleUnread_gapless : (beginAmid [] "Shop" none (.memory (.empty 10))).Always Gapless sampleUnread := by
  have blank : (Store.memory (.empty 10)).Blank := rfl
  have honest : ∀ fault ∈ ([] : List Fault), fault.Honest := by simp
  have roomy : (beginAmid [] "Shop" none (.memory (.empty 10))).RoomyFor (·.account.shelf) sampleUnread :=
    roomyFor_beginAmid blank rfl honest "Shop" none (by decide)
  refine (always_gapless_iff blank rfl honest "Shop" none roomy).mpr ⟨nofun, nofun, nofun, ?_, trivial⟩
  intro v _ h kept
  have unread : ((beginAmid [] "Shop" none (.memory (.empty 10))).run (sampleUnread.take 3)).1.registry.histories =
      Table.empty := by decide +kernel
  change Table.get? ((beginAmid [] "Shop" none (.memory (.empty 10))).run (sampleUnread.take 3)).1.registry.histories
    v.name = some h at kept
  rw [unread] at kept
  cases kept

def sampleStaleEnd : Session (Faulty Store) := ((beginAmid [] "Shop" none (.memory (.empty 10))).run sampleStale).1

/-- The registry answers the first and the third version of the schema and not the second. -/
theorem sampleStale_gap : ¬ (beginAmid [] "Shop" none (.memory (.empty 10))).Always Gapless sampleStale := by
  intro always
  have gapless : sampleStaleEnd.Gapless := always.last
  have answered : (sampleStaleEnd.registry.histories.get? "shop.Order").map (fun h => h.versions.keys) =
      some [⟨"1"⟩, ⟨"3"⟩] := by decide +kernel
  have stored : (sampleStaleEnd.account.shelf sampleStaleEnd.registry.name "shop.Order").get? ⟨"2"⟩ ≠ none := by
    decide +kernel
  obtain ⟨h, kept, keys⟩ := Option.map_eq_some_iff.mp answered
  have has (id : VersionId) : h.Has id ↔ id ∈ [(⟨"1"⟩ : VersionId), ⟨"3"⟩] := by
    rw [← keys, ← Table.contains_iff_mem_keys, Table.contains, Option.isSome_iff_exists]
    rfl
  have second := gapless "shop.Order" h _ sampleStaleEnd.directory (by rw [Registry.history, kept]) ⟨"3"⟩
    ((has _).mpr (by decide)) ⟨"2"⟩ stored (by decide)
  exact absurd ((has _).mp second) (by decide)

end Session

end Schemata
