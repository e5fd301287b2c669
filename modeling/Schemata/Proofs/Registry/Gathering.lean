import Schemata.Proofs.Directory.Draining
import Schemata.Proofs.Registry.Reading

/-! The names and versions that a registry gathers from a directory, page by page. What it has gathered when it is
done is what the pages of the listing hold, and whether the listing stays as it is or grows meanwhile is a matter
of the pages alone. -/
namespace Schemata

theorem Names.addAll_append (names : Names) (first second : List String) :
    names.addAll (first ++ second) = (names.addAll first).addAll second := List.foldl_append

theorem Names.sorted_addAll {names : Names} (sorted : names.Sorted) (more : List String) :
    (names.addAll more).Sorted := by
  induction more generalizing names with
  | nil => exact sorted
  | cons name rest ih => exact ih (Table.sorted_insert sorted name ())

namespace Registry

variable {σ : Type} [Directory σ]

/-- How the listing of a request shows from call to call: a page is a slice of the names that are shown, no name is
gone the next time, and afterwards it is still known which names were shown. -/
structure Shows (now : Instant) (request : ListRequest) (size : Nat) (Holds : σ → Prop)
    (shown read : σ → List String) : Prop where
  call : ∀ {token : Option String} {s s' : σ} {page : Page SchemaSummary}, Holds s →
    Directory.listSchemas now { request with token } s = (.ok page, s') → Holds s' ∧
      Page.slice (shown s) token size = .ok (page.map (·.name)) ∧ (shown s).Sublist (shown s') ∧ read s' = shown s

theorem Shows.drains {now : Instant} {request : ListRequest} {size : Nat} {Holds : σ → Prop}
    {shown read : σ → List String} (shows : Shows now request size Holds shown read) {token : Option String}
    {names found : Names} {s s' : σ} (holds : Holds s)
    (drained : drainNames now { request with token } names s = (.ok found, s')) :
    ∃ lists pages, Page.Drains size lists token pages ∧ found = names.addAll (Page.gathered pages) ∧ Holds s' ∧
      lists 0 = shown s ∧ (∀ k, (lists k).Sublist (lists (k + 1))) ∧ lists (pages.length - 1) = read s' := by
  -- By induction on the pages that are listed.
  have drains := drains_of_drainNames drained
  generalize asked : { request with token } = current at drains
  generalize answered : Except.ok found = answer at drains
  clear drained
  induction drains generalizing token with
  | failed _ => cases answered
  | @last _ names page s s' listed ends =>
    subst asked
    cases answered
    obtain ⟨holds', sliced, -, known⟩ := shows.call holds listed
    refine ⟨fun _ => shown s, [page.map (·.name)], .last sliced ends, ?_, holds', rfl, fun _ => .refl _, known.symm⟩
    rw [Page.gathered_single]
    rfl
  | @more _ names page next _ s _ _ listed more _ ih =>
    subst asked
    obtain ⟨holds₁, sliced, grows, -⟩ := shows.call holds listed
    obtain ⟨lists, pages, drains, gathers, holds', first, grows', last⟩ := ih holds₁ rfl answered
    refine ⟨fun k => Nat.casesOn k (shown s) lists, page.map (·.name) :: pages, .more sliced more drains, ?_, holds',
      rfl, ?_, ?_⟩
    · rw [gathers, Page.gathered_cons, Names.addAll_append]
      rfl
    · rintro (_ | k)
      · change (shown s).Sublist (lists 0)
        rw [first]
        exact grows
      · exact grows' k
    · obtain ⟨k, length⟩ := Nat.exists_eq_succ_of_ne_zero (Nat.pos_iff_ne_zero.mp drains.length_pos)
      rw [← last, List.length_cons, length]
      rfl

/-- What is listed after a load: all names that were shown at first, and only those that were shown at last, besides
those of models. -/
theorem Shows.load {now : Instant} {size : Nat} {Holds : σ → Prop} {shown read : σ → List String} {r r' : Registry}
    {s s' : σ} (shows : Shows now ⟨r.name, r.start, none⟩ size Holds shown read) (holds : Holds s)
    (loaded : r.load now s = (.ok (), r', s')) : Holds s' ∧ r'.listed.Sorted ∧ ∃ names, shown s ⊆ names ∧
      names ⊆ read s' ∧ ∀ name, name ∈ r'.schemaNames ↔ name ∈ names ∨ ∃ v ∈ r.models.values, v.name = name := by
  cases loads_of_load loaded with
  | listed drained =>
    obtain ⟨lists, pages, drains, rfl, holds', first, grows, last⟩ := shows.drains holds drained
    refine ⟨holds', Names.sorted_addAll (Names.sorted_addAll Table.sorted_empty _) _, Page.gathered pages,
      first ▸ drains.covers grows rfl, last ▸ drains.within fun k => (grows k).subset, fun name => ?_⟩
    have none : ¬ (Table.empty : Names).contains name = true := nofun
    rw [schemaNames, ← Table.contains_iff_mem_keys, Names.contains_addAll, Names.contains_addAll, List.mem_map,
      or_iff_right none]

end Registry

end Schemata
