import Schemata.Proofs.Registry.Reading

/-! What a registry holds agrees with its directory, whatever else is written there: each history that it has
read holds versions from the shelves, and the version that a model is registered as is among them. -/
namespace Schemata.Registry

open LawfulDirectory

/-- What stands behind the version that a model is registered as. -/
structure Relies (r : Registry) (shelves : Shelves) (handle : Handle) (v : Version) : Prop where
  own : v.registry = r.name
  onShelf : v.OnShelf shelves
  checksum : v.document.checksum = handle.checksum
  listed : r.listed.contains v.name = true
  cached : ∀ h, r.histories.get? v.name = some h → h.Has v.id

structure Coherent (r : Registry) (shelves : Shelves) : Prop where
  histories : ∀ name h, r.histories.get? name = some h → h.Mirrors r.name name shelves
  models : ∀ handle v, r.models.get? handle = some v → r.Relies shelves handle v

theorem coherent_new (name : String) (start : Option String) (shelves : Shelves) :
    (new name start).Coherent shelves := ⟨nofun, nofun⟩

section
variable {r : Registry} {shelves : Shelves} (coherent : r.Coherent shelves)
include coherent

theorem Coherent.extends {later : Shelves} (grown : later.Extends shelves) : r.Coherent later where
  histories name h found := (coherent.histories name h found).extends grown
  models handle v found :=
    have relies := coherent.models handle v found
    { relies with onShelf := grown _ _ _ _ relies.onShelf }

theorem Coherent.keep {name : String} {h : History} (whole : h.Whole r.name name shelves) :
    ({ r with histories := r.histories.insert name h } : Registry).Coherent shelves where
  histories other found there := by
    rcases Table.of_get?_insert there with ⟨rfl, rfl⟩ | old
    · exact whole.mirrors
    · exact coherent.histories other found old
  models handle v known := by
    have relies := coherent.models handle v known
    refine { relies with cached := fun found there => ?_ }
    rcases Table.of_get?_insert there with ⟨same, rfl⟩ | old
    · have onShelf := relies.onShelf
      rw [Version.OnShelf, relies.own, same] at onShelf
      exact whole.complete v.id (by rw [onShelf]; exact nofun)
    · exact relies.cached found old

/-- Histories may be forgotten, as long as the schemas of the registered models stay listed. -/
theorem Coherent.forget {listed : Names} (kept : ∀ v ∈ r.models.values, listed.contains v.name = true) :
    ({ r with listed := listed, histories := Table.empty } : Registry).Coherent shelves where
  histories _ _ there := by cases there
  models handle v known :=
    have relies := coherent.models handle v known
    { own := relies.own, onShelf := relies.onShelf, checksum := relies.checksum
      listed := kept v (List.mem_map_of_mem (Table.mem_of_get? known)), cached := nofun }

theorem Coherent.known (name : String) : (r.known name).Mirrors r.name name shelves := by
  unfold Registry.known
  cases found : r.histories.get? name with
  | none => exact History.mirrors_empty _ _ _
  | some h => exact coherent.histories _ _ found

/-- The greatest version of a schema, once it is remembered, is the default version of its history. -/
theorem Coherent.remember {handle : Handle} {v : Version} (own : v.registry = r.name)
    (checksum : v.document.checksum = handle.checksum) (sorted : (shelves r.name v.name).Sorted)
    (greatest : (shelves r.name v.name).last? = some (v.id, some v.document.text))
    (ready : r.histories.contains v.name = true ∨
      ∀ handle w, r.models.get? handle = some w → w.name ≠ v.name) :
    ∃ kept r' h, r.remember v.name handle v = (.ok kept, r') ∧ r'.Coherent shelves ∧ r'.name = r.name ∧
      kept.registry = r.name ∧ kept.name = v.name ∧ kept.id = v.id ∧
      kept.document = v.document ∧ r'.models.get? handle = some kept ∧
      r'.histories.get? v.name = some h ∧ h.versions.last? = some (v.id, kept) := by
  have onShelf : v.OnShelf shelves := by
    rw [Version.OnShelf, own]
    exact (sorted.last?_eq_some_iff.mp greatest).1
  have mirrors' := (coherent.known v.name).insert own rfl onShelf
  have has (id : VersionId) := History.has_insert (r.known v.name) v id
  obtain ⟨kept, found, remembered⟩ := remember_eq v.name handle v r
  generalize ((r.known v.name).insert v).1 = h at mirrors' has found remembered
  obtain ⟨kept', found', last, text⟩ := mirrors'.default sorted greatest ((has v.id).mpr (.inr rfl))
  obtain rfl : kept = kept' := Option.some.inj (found.symm.trans found')
  obtain ⟨ownKept, named, numbered⟩ := mirrors'.own _ _ found
  have document : kept.document = v.document := by
    have texts : kept.document.text = v.document.text := (Option.some.inj text).symm
    exact congrArg Document.mk texts
  refine ⟨kept, { r with
    histories := r.histories.insert v.name h
    listed := r.listed.add v.name
    models := r.models.insert handle kept }, h, remembered, ⟨fun name' h' there => ?_, fun handle' w known => ?_⟩,
    rfl, ownKept, named, numbered, document, Table.get?_insert_same _ _ _, Table.get?_insert_same _ _ _, last⟩
  · rcases Table.of_get?_insert there with ⟨rfl, rfl⟩ | before
    · exact mirrors'
    · exact coherent.histories name' h' before
  · by_cases same : handle' = handle
    · subst same
      rw [Table.get?_insert_same, Option.some.injEq] at known
      subst known
      refine ⟨ownKept, mirrors'.onShelf _ _ found, document ▸ checksum, ?_, fun h' there => ?_⟩
      · rw [Names.contains_add, named]
        exact .inl rfl
      · rw [named, Table.get?_insert_same, Option.some.injEq] at there
        rw [← there, numbered]
        exact ⟨kept, found⟩
    · rw [Table.get?_insert_other same] at known
      have relies := coherent.models handle' w known
      refine { relies with listed := ?_, cached := fun h' there => ?_ }
      · exact (Names.contains_add _ _ _).mpr (.inr relies.listed)
      · by_cases schema : w.name = v.name
        · rw [schema, Table.get?_insert_same, Option.some.injEq] at there
          rw [← there, has]
          rcases ready with cached | absent
          · obtain ⟨h₀, there₀⟩ := Option.isSome_iff_exists.mp cached
            rw [Registry.known, there₀]
            exact .inl (relies.cached h₀ (schema ▸ there₀))
          · exact absurd schema (absent handle' w known)
        · rw [Table.get?_insert_other schema] at there
          exact relies.cached h' there

end

end Schemata.Registry
