import Schemata.Proofs.Directory.Lawful
import Schemata.Proofs.Registry.Course

/-! Reading a directory through its pages: a history that is read agrees with the shelf and holds all of it,
and a listing of all schemas leaves none out that has a version. -/
namespace Schemata.Registry

open LawfulDirectory

section
variable {σ : Type} [Directory σ] {registry name : String} {s : σ}

theorem drainVersions_page {token : Option String} {h h₁ : History} {page : Page VersionSummary} {s₁ s₂ : σ}
    (listed : Directory.listVersions registry name token s = (.ok page, s₁))
    (described : describeAll registry name page.items h s₁ = (.ok h₁, s₂)) :
    drainVersions registry name token h s = match page.next with
      | none => (.ok h₁, s₂)
      | some next => drainVersions registry name (some next) h₁ s₂ := by
  rw [drainVersions]
  split
  · rename_i failed
    rw [listed] at failed
    cases failed
  · rename_i answered
    rw [listed] at answered
    cases answered
    split
    · rename_i failed
      rw [described] at failed
      cases failed
    · rename_i read
      rw [described] at read
      cases read
      split <;> rename_i next <;> rw [next]

theorem drainVersions_error {token : Option String} {h : History} {e : DirectoryError} {s₁ : σ}
    (listed : Directory.listVersions registry name token s = (.error e, s₁)) :
    drainVersions registry name token h s = (.error e, s₁) := by
  rw [drainVersions]
  split
  · rename_i failed
    rw [listed] at failed
    cases failed
    rfl
  · rename_i answered
    rw [listed] at answered
    cases answered

theorem drainVersions_unread {token : Option String} {h : History} {page : Page VersionSummary}
    {e : DirectoryError} {s₁ s₂ : σ} (listed : Directory.listVersions registry name token s = (.ok page, s₁))
    (described : describeAll registry name page.items h s₁ = (.error e, s₂)) :
    drainVersions registry name token h s = (.error e, s₂) := by
  rw [drainVersions]
  split
  · rename_i failed
    rw [listed] at failed
    cases failed
  · rename_i answered
    rw [listed] at answered
    cases answered
    split
    · rename_i failed
      rw [described] at failed
      cases failed
      rfl
    · rename_i read
      rw [described] at read
      cases read

theorem drainNames_page {now : Instant} {request : ListRequest} {names : Names} {page : Page SchemaSummary}
    {s₁ : σ} (listed : Directory.listSchemas now request s = (.ok page, s₁)) :
    drainNames now request names s = match page.next with
      | none => (.ok (names.addAll (page.items.map (·.name))), s₁)
      | some next => drainNames now { request with token := some next }
          (names.addAll (page.items.map (·.name))) s₁ := by
  rw [drainNames]
  split
  · rename_i failed
    rw [listed] at failed
    cases failed
  · rename_i answered
    rw [listed] at answered
    cases answered
    split <;> rename_i next <;> rw [next]

theorem drainNames_error {now : Instant} {request : ListRequest} {names : Names} {e : DirectoryError}
    {s₁ : σ} (listed : Directory.listSchemas now request s = (.error e, s₁)) :
    drainNames now request names s = (.error e, s₁) := by
  rw [drainNames]
  split
  · rename_i failed
    rw [listed] at failed
    cases failed
    rfl
  · rename_i answered
    rw [listed] at answered
    cases answered

/-- The calls of a listing of versions that is drained, up to its last page or to a failure. -/
inductive DrainsVersions (registry name : String) :
    Option String → History → σ → Except DirectoryError History → σ → Prop where
  | failed {token : Option String} {h : History} {e : DirectoryError} {s s₁ : σ} :
    Directory.listVersions registry name token s = (.error e, s₁) →
    DrainsVersions registry name token h s (.error e) s₁
  | unread {token : Option String} {h : History} {page : Page VersionSummary} {e : DirectoryError} {s s₁ s₂ : σ} :
    Directory.listVersions registry name token s = (.ok page, s₁) →
    describeAll registry name page.items h s₁ = (.error e, s₂) → DrainsVersions registry name token h s (.error e) s₂
  | last {token : Option String} {h h₁ : History} {page : Page VersionSummary} {s s₁ s₂ : σ} :
    Directory.listVersions registry name token s = (.ok page, s₁) →
    describeAll registry name page.items h s₁ = (.ok h₁, s₂) → page.next = none →
    DrainsVersions registry name token h s (.ok h₁) s₂
  | more {token : Option String} {h h₁ : History} {page : Page VersionSummary} {next : String}
    {answer : Except DirectoryError History} {s s₁ s₂ s' : σ} :
    Directory.listVersions registry name token s = (.ok page, s₁) →
    describeAll registry name page.items h s₁ = (.ok h₁, s₂) → page.next = some next →
    DrainsVersions registry name (some next) h₁ s₂ answer s' → DrainsVersions registry name token h s answer s'

theorem drains_of_drainVersions {token : Option String} {h : History} {answer : Except DirectoryError History} {s' : σ}
    (drained : drainVersions registry name token h s = (answer, s')) :
    DrainsVersions registry name token h s answer s' := by
  -- By induction on the versions that are left to be listed.
  induction left : Directory.versionsLeft registry name token s using Nat.strongRecOn generalizing token h s with
  | ind n ih =>
    rcases listed : Directory.listVersions registry name token s with ⟨e | page, s₁⟩
    · rw [drainVersions_error listed] at drained
      cases drained
      exact .failed listed
    · rcases described : describeAll registry name page.items h s₁ with ⟨e | h₁, s₂⟩
      · rw [drainVersions_unread listed described] at drained
        cases drained
        exact .unread listed described
      · rw [drainVersions_page listed described] at drained
        cases more : page.next with
        | none =>
          rw [more] at drained
          cases drained
          exact .last listed described more
        | some next =>
          rw [more] at drained
          have fewer := Nat.lt_of_le_of_lt (Nat.le_of_eq (versionsLeft_describeAll described))
            (Directory.versionsLeft_lt listed more)
          exact .more listed described more (ih _ (left ▸ fewer) drained rfl)

/-- The calls of a listing of schemas that is drained, up to its last page or to a failure. -/
inductive DrainsNames (now : Instant) : ListRequest → Names → σ → Except DirectoryError Names → σ → Prop where
  | failed {request : ListRequest} {names : Names} {e : DirectoryError} {s s₁ : σ} :
    Directory.listSchemas now request s = (.error e, s₁) → DrainsNames now request names s (.error e) s₁
  | last {request : ListRequest} {names : Names} {page : Page SchemaSummary} {s s₁ : σ} :
    Directory.listSchemas now request s = (.ok page, s₁) → page.next = none →
    DrainsNames now request names s (.ok (names.addAll (page.items.map (·.name)))) s₁
  | more {request : ListRequest} {names : Names} {page : Page SchemaSummary} {next : String}
    {answer : Except DirectoryError Names} {s s₁ s' : σ} :
    Directory.listSchemas now request s = (.ok page, s₁) → page.next = some next →
    DrainsNames now { request with token := some next } (names.addAll (page.items.map (·.name))) s₁ answer s' →
    DrainsNames now request names s answer s'

theorem drains_of_drainNames {now : Instant} {request : ListRequest} {names : Names}
    {answer : Except DirectoryError Names} {s' : σ} (drained : drainNames now request names s = (answer, s')) :
    DrainsNames now request names s answer s' := by
  -- By induction on the schemas that are left to be listed.
  induction left : Directory.schemasLeft request s using Nat.strongRecOn generalizing request names s with
  | ind n ih =>
    rcases listed : Directory.listSchemas now request s with ⟨e | page, s₁⟩
    · rw [drainNames_error listed] at drained
      cases drained
      exact .failed listed
    · rw [drainNames_page listed] at drained
      cases more : page.next with
      | none =>
        rw [more] at drained
        cases drained
        exact .last listed more
      | some next =>
        rw [more] at drained
        exact .more listed more (ih _ (left ▸ Directory.schemasLeft_lt listed more) drained rfl)

variable [LawfulDirectory σ] {c : Catalog}

theorem describeAll_ok {summaries : List VersionSummary} {h : History} (kept : Kept s) (view : catalog s = c)
    (present : ∀ summary ∈ summaries, (c.shelf registry name).get? ⟨summary.version⟩ ≠ none)
    (mirrors : h.Mirrors registry name c.shelf) :
    ∃ h' s', describeAll registry name summaries h s = (.ok h', s') ∧ Kept s' ∧ catalog s' = c ∧
      h'.Mirrors registry name c.shelf ∧
      ∀ id, h'.Has id ↔ h.Has id ∨ id ∈ summaries.map fun summary => VersionId.mk summary.version := by
  induction summaries generalizing h s with
  | nil => exact ⟨h, s, rfl, kept, view, mirrors, by simp⟩
  | cons summary rest ih =>
    rcases described : Directory.describe registry name (some summary.version) s with ⟨answer, s₁⟩
    obtain ⟨kept₁, same, describes⟩ := describe_law kept described
    rw [view] at same describes
    cases describes with
    | absent gone _ => exact absurd (gone _ rfl) (present summary List.mem_cons_self)
    | @found d named there numbered _ =>
      have onShelf : (d.toVersion registry).OnShelf c.shelf := by
        change (c.shelf registry d.receipt.name).get? ⟨d.receipt.version⟩ = _
        rw [named]
        exact there
      have later : ∀ summary ∈ rest, (c.shelf registry name).get? ⟨summary.version⟩ ≠ none :=
        fun summary member => present summary (List.mem_cons_of_mem _ member)
      obtain ⟨h', s', read, kept', view', mirrors', has⟩ :=
        ih kept₁ same later (mirrors.insert rfl named onShelf)
      refine ⟨h', s', by simp [describeAll, described, read], kept', view', mirrors', ?_⟩
      intro id
      have id' : (d.toVersion registry).id = ⟨summary.version⟩ := congrArg VersionId.mk (numbered _ rfl)
      rw [has, History.has_insert, id', List.map_cons, List.mem_cons, or_assoc]

theorem listVersions_page {token : Option String} {start : Nat} {answer : Except DirectoryError (Page VersionSummary)}
    (kept : Kept s) (filled : (catalog s).shelf registry name ≠ Table.empty)
    (known : Page.start? token = some start) (inside : start ≤ ((catalog s).shelf registry name).size)
    (listed : Directory.listVersions registry name token s = (answer, s')) :
    ∃ page stop, answer = .ok page ∧ stop ≤ ((catalog s).shelf registry name).size ∧
      ((catalog s).shelf registry name).keys.drop start =
        page.items.map (fun item => VersionId.mk item.version) ++
          ((catalog s).shelf registry name).keys.drop stop ∧
      (page.next = none ∧ stop = ((catalog s).shelf registry name).size ∨
        page.next = some (Page.tokenOf stop) ∧ start < stop) := by
  obtain ⟨-, -, ⟨-, none⟩ | ⟨items, size, versions, sliced⟩⟩ := listVersions_law kept listed
  · exact absurd none filled
  · have length : items.length = ((catalog s).shelf registry name).size := by
      rw [← List.length_map, versions, Table.keys, List.length_map, Table.size]
    rw [← length] at inside ⊢
    obtain ⟨page, stop, cut, within, parts, next⟩ := Page.slice_cases items size known inside
    refine ⟨page, stop, sliced.trans cut, within, ?_, next⟩
    rw [← versions, ← List.map_drop, ← parts, List.map_append, List.map_drop]

theorem drainVersions_ok {token : Option String} {start : Nat} {h : History} (kept : Kept s)
    (view : catalog s = c) (filled : c.shelf registry name ≠ Table.empty)
    (small : (c.shelf registry name).size < 18446744073709551616)
    (known : Page.start? token = some start) (inside : start ≤ (c.shelf registry name).size)
    (mirrors : h.Mirrors registry name c.shelf) :
    ∃ h' s', drainVersions registry name token h s = (.ok h', s') ∧ Kept s' ∧ catalog s' = c ∧
      h'.Mirrors registry name c.shelf ∧
      ∀ id, h.Has id ∨ id ∈ (c.shelf registry name).keys.drop start → h'.Has id := by
  -- By induction on what is left from the token's start on.
  induction left : (c.shelf registry name).size - start using Nat.strongRecOn
    generalizing token start h s with
  | ind n ih =>
    rcases listed : Directory.listVersions registry name token s with ⟨answer, s₁⟩
    obtain ⟨kept₁, view₁, -⟩ := listVersions_law kept listed
    have sorted := (orderly kept).sorted registry name
    subst view
    obtain ⟨page, stop, rfl, within, keys, next⟩ := listVersions_page kept filled known inside listed
    have present : ∀ summary ∈ page.items, ((catalog s).shelf registry name).get? ⟨summary.version⟩ ≠ none := by
      intro summary member
      have key : VersionId.mk summary.version ∈ ((catalog s).shelf registry name).keys.drop start := by
        rw [keys, List.mem_append]
        exact .inl (List.mem_map.mpr ⟨summary, member, rfl⟩)
      obtain ⟨entry, found, first⟩ := List.mem_map.mp (List.mem_of_mem_drop key)
      rw [← first, sorted.get?_of_mem found]
      exact Option.some_ne_none _
    obtain ⟨h₁, s₂, described, kept₂, view₂, mirrors₁, has⟩ := describeAll_ok kept₁ view₁ present mirrors
    rw [drainVersions_page listed described]
    have onward {id : VersionId} (among : h.Has id ∨ id ∈ ((catalog s).shelf registry name).keys.drop start) :
        h₁.Has id ∨ id ∈ ((catalog s).shelf registry name).keys.drop stop := by
      rw [keys, List.mem_append] at among
      rw [has]
      tauto
    rcases next with ⟨last, stops⟩ | ⟨more, further⟩
    · rw [last]
      refine ⟨h₁, s₂, rfl, kept₂, view₂, mirrors₁, fun id among => (onward among).resolve_right ?_⟩
      rw [stops, Table.size, ← List.length_map, ← Table.keys, List.drop_length]
      exact List.not_mem_nil
    · rw [more]
      have next : Page.start? (some (Page.tokenOf stop)) = some stop := by
        rw [Page.start?_tokenOf, if_pos (by omega)]
      obtain ⟨h', s', drained, kept', view', mirrors', all⟩ :=
        ih _ (by omega) kept₂ view₂ next within mirrors₁ rfl
      exact ⟨h', s', drained, kept', view', mirrors', fun id among => all id (onward among)⟩

theorem readHistory_bare (kept : Kept s) (view : catalog s = c)
    (bare : c.shelf registry name = Table.empty) :
    ∃ answer s', readHistory registry name s = (answer, s') ∧ Kept s' ∧ catalog s' = c ∧
      ((∃ e, answer = .error e) ∨ answer = .ok (.empty registry name)) := by
  rcases listed : Directory.listVersions registry name none s with ⟨answer, s₁⟩
  obtain ⟨kept₁, view₁, ⟨⟨e, rfl⟩, -⟩ | ⟨items, size, versions, sliced⟩⟩ := listVersions_law kept listed
  · exact ⟨_, s₁, drainVersions_error listed, kept₁, view₁.trans view, .inl ⟨e, rfl⟩⟩
  · rw [view, bare] at versions
    obtain rfl : items = [] := List.map_eq_nil_iff.mp versions
    have start : Page.start? none = some 0 := rfl
    obtain ⟨page, stop, cut, within, parts, next⟩ := Page.slice_cases [] size start (Nat.le_refl 0)
    obtain ⟨none, -⟩ := List.append_eq_nil_iff.mp parts
    rw [sliced, cut] at listed
    refine ⟨_, s₁, ?_, kept₁, view₁.trans view, .inr rfl⟩
    have described : describeAll registry name page.items (.empty registry name) s₁ =
        (.ok (.empty registry name), s₁) := by
      rw [none]
      rfl
    rw [readHistory, drainVersions_page listed described]
    rcases next with ⟨last, -⟩ | ⟨-, further⟩
    · rw [last]
    · exact absurd within (Nat.not_le_of_gt further)

/-- Reading the history of a schema fails only if it has no versions. -/
theorem readHistory_cases {answer : Except DirectoryError History} {s' : σ} (kept : Kept s) (view : catalog s = c)
    (small : (c.shelf registry name).size < 18446744073709551616)
    (read : readHistory registry name s = (answer, s')) : Kept s' ∧ catalog s' = c ∧
      ((∃ e, answer = .error e) ∧ c.shelf registry name = Table.empty ∨
        ∃ h, answer = .ok h ∧ h.Whole registry name c.shelf) := by
  by_cases bare : c.shelf registry name = Table.empty
  · obtain ⟨_, _, read', kept', view', ends⟩ := @readHistory_bare _ _ registry name s _ _ kept view bare
    cases read.symm.trans read'
    exact ⟨kept', view', ends.imp (⟨·, bare⟩) fun none => ⟨_, none, History.whole_empty bare⟩⟩
  · obtain ⟨h, _, drained, kept', view', mirrors, all⟩ :=
      drainVersions_ok kept view bare small (show Page.start? none = some 0 from rfl) (Nat.zero_le _)
        (History.mirrors_empty registry name c.shelf)
    cases read.symm.trans drained
    refine ⟨kept', view', .inr ⟨h, rfl, mirrors, fun id present => all id (.inr ?_)⟩⟩
    obtain ⟨content, found⟩ := Option.ne_none_iff_exists'.mp present
    exact List.mem_map.mpr ⟨_, Table.mem_of_get? found, rfl⟩

theorem listSchemas_page {now : Instant} {request : ListRequest} {page : Page SchemaSummary} (kept : Kept s)
    (listed : Directory.listSchemas now request s = (.ok page, s')) (all : request.start = none) :
    ∃ start, Page.start? request.token = some start ∧
      (start ≤ ((catalog s).names request.registry).length →
        ∃ stop, stop ≤ ((catalog s).names request.registry).length ∧
          ((catalog s).names request.registry).drop start =
            page.items.map (·.name) ++ ((catalog s).names request.registry).drop stop ∧
          (page.next = none ∧ stop = ((catalog s).names request.registry).length ∨
            page.next = some (Page.tokenOf stop))) := by
  obtain ⟨-, -, law⟩ := listSchemas_law kept listed
  obtain ⟨e, failed⟩ | ⟨items, size, names, sliced⟩ := law all
  · cases failed
  · obtain ⟨start, known⟩ := Page.start?_of_slice sliced.symm
    refine ⟨start, known, fun inside => ?_⟩
    rw [← names, List.length_map] at inside ⊢
    obtain ⟨page', stop, cut, within, parts, next⟩ := Page.slice_cases items size known inside
    rw [cut, Except.ok.injEq] at sliced
    subst sliced
    refine ⟨stop, within, ?_, next.imp_right And.left⟩
    rw [← List.map_drop, ← parts, List.map_append, List.map_drop]

/-- A listing leaves the directory as it is. One of all schemas finds every name from its start on. -/
theorem drainNames_cases {now : Instant} {request : ListRequest} {names : Names} (kept : Kept s)
    (view : catalog s = c) : ∃ answer s', drainNames now request names s = (answer, s') ∧ Kept s' ∧
      catalog s' = c ∧ ∀ found, answer = .ok found →
        (∀ name, names.contains name = true → found.contains name = true) ∧
        (request.start = none → ∃ start, Page.start? request.token = some start ∧
          (start ≤ (c.names request.registry).length → ∀ name ∈ (c.names request.registry).drop start,
            found.contains name = true)) := by
  induction left : Directory.schemasLeft request s using Nat.strongRecOn generalizing request names s with
  | ind n ih =>
    rcases listed : Directory.listSchemas now request s with ⟨answer, s₁⟩
    obtain ⟨kept₁, view₁, -⟩ := listSchemas_law kept listed
    subst view
    cases answer with
    | error e => exact ⟨_, s₁, drainNames_error listed, kept₁, view₁, nofun⟩
    | ok page =>
      rw [drainNames_page listed]
      have added (name : String) := Names.contains_addAll names (page.items.map (·.name)) name
      cases more : page.next with
      | none =>
        refine ⟨_, s₁, rfl, kept₁, view₁, ?_⟩
        rintro found ⟨rfl⟩
        refine ⟨fun name old => (added name).mpr (.inl old), fun all => ?_⟩
        obtain ⟨start, known, stops⟩ := listSchemas_page kept listed all
        refine ⟨start, known, ?_⟩
        intro inside name among
        obtain ⟨stop, -, parts, ⟨-, last⟩ | next⟩ := stops inside
        · rw [parts, last, List.drop_length, List.append_nil] at among
          exact (added name).mpr (.inr among)
        · rw [more] at next
          cases next
      | some token =>
        have fewer := Directory.schemasLeft_lt listed more
        obtain ⟨answer, s', drained, kept', view', later⟩ := ih _ (left ▸ fewer) kept₁ view₁ rfl
        refine ⟨answer, s', drained, kept', view', ?_⟩
        intro found accepted
        obtain ⟨keeps, rest⟩ := later found accepted
        refine ⟨fun name old => keeps name ((added name).mpr (.inl old)), fun all => ?_⟩
        obtain ⟨start, known, stops⟩ := listSchemas_page kept listed all
        refine ⟨start, known, ?_⟩
        intro inside name among
        obtain ⟨stop, within, parts, ⟨last, -⟩ | next⟩ := stops inside
        · rw [more] at last
          cases last
        · rw [more, Option.some.injEq] at next
          rw [parts, List.mem_append] at among
          rcases among with here | further
          · exact keeps name ((added name).mpr (.inr here))
          · obtain ⟨start', known', finds⟩ := rest all
            rw [next, Page.start?_tokenOf] at known'
            split at known'
            · cases known'
              exact finds within name further
            · cases known'

/-- Loading leaves the directory as it is. A registry without a beginning lists every schema with a version
afterwards. -/
theorem load_cases {now : Instant} {r : Registry} (kept : Kept s) (view : catalog s = c) :
    ∃ answer r' s', r.load now s = (answer, r', s') ∧ Kept s' ∧ catalog s' = c ∧
      ((∃ e, answer = .error e) ∧ r' = r ∨ answer = .ok () ∧ ∃ listed : Names,
        r' = { r with listed := listed, histories := Table.empty } ∧
        (∀ v ∈ r.models.values, listed.contains v.name = true) ∧
        (r.start = none → ∀ name, c.shelf r.name name ≠ Table.empty → listed.contains name = true)) := by
  obtain ⟨_, _, drained, kept', view', lists⟩ :=
    @drainNames_cases _ _ s _ c now ⟨r.name, r.start, none⟩ Table.empty kept view
  rcases loaded : r.load now s with ⟨answer, r', s'⟩
  cases loads_of_load loaded with
  | failed failed =>
    cases failed.symm.trans drained
    exact ⟨_, r, _, rfl, kept', view', .inl ⟨⟨_, rfl⟩, rfl⟩⟩
  | @listed names _ listed =>
    cases listed.symm.trans drained
    have added (name : String) := Names.contains_addAll names (r.models.values.map (·.name)) name
    refine ⟨_, _, _, rfl, kept', view', .inr ⟨rfl, _, rfl, fun v member => ?_, fun whole name filled => ?_⟩⟩
    · exact (added v.name).mpr (.inr (List.mem_map_of_mem member))
    · obtain ⟨start, known, finds⟩ := (lists names rfl).2 whole
      obtain rfl : 0 = start := Option.some.inj known
      exact (added name).mpr (.inl (finds (Nat.zero_le _) name ((view ▸ orderly kept).named r.name name filled)))

end

end Schemata.Registry
