import Schemata.Proofs.Registry.Gathering

/-! What a registry reads of a directory that nobody writes to meanwhile. Names and histories come from whole
listings and from the descriptions of single versions, and nothing is left of the pages in which they came. -/
namespace Schemata

/-- What a directory shows to those who only read it. -/
structure Contents where
  schemas (now : Instant) (registry : String) (start : Option String) : Except DirectoryError (List SchemaSummary)
  versions (registry name : String) : Except DirectoryError (List VersionSummary)
  describe (registry name : String) (version : Option String) : Except DirectoryError Described

namespace Contents

/-- Every place in a listing has a token. -/
structure Bounded (c : Contents) : Prop where
  schemas {now : Instant} {registry : String} {start : Option String} {items : List SchemaSummary} :
    c.schemas now registry start = .ok items → items.length < 18446744073709551616
  versions {registry name : String} {items : List VersionSummary} :
    c.versions registry name = .ok items → items.length < 18446744073709551616

def names (c : Contents) (now : Instant) (registry : String) (start : Option String) : Except DirectoryError Names :=
  (c.schemas now registry start).map fun items => Names.addAll Table.empty (items.map (·.name))

def extend (c : Contents) (registry name : String) (h : History) (summary : VersionSummary) :
    Except DirectoryError History :=
  (c.describe registry name (some summary.version)).map fun d => (h.insert (d.toVersion registry)).1

def history (c : Contents) (registry name : String) : Except DirectoryError History :=
  (c.versions registry name).bind fun items => items.foldlM (c.extend registry name) (.empty registry name)

/-- The contents are shown in pages of one size for as long as the directory is only read. -/
structure Shown {σ : Type} [Directory σ] (c : Contents) (size : Nat) (Holds : σ → Prop) : Prop where
  listSchemas (now : Instant) (request : ListRequest) {s : σ} : Holds s → ∃ s', Holds s' ∧
    Directory.listSchemas now request s =
      ((c.schemas now request.registry request.start).bind fun items => Page.slice items request.token size, s')
  listVersions (registry name : String) (token : Option String) {s : σ} : Holds s → ∃ s', Holds s' ∧
    Directory.listVersions registry name token s =
      ((c.versions registry name).bind fun items => Page.slice items token size, s')
  describe (registry name : String) (version : Option String) {s : σ} : Holds s → ∃ s', Holds s' ∧
    Directory.describe registry name version s = (c.describe registry name version, s')

section
variable {σ : Type} [Directory σ] {c : Contents} {size : Nat} {Holds : σ → Prop} (shown : c.Shown size Holds)
  {registry name : String} {s : σ}
include shown

theorem Shown.describeAll (registry name : String) (summaries : List VersionSummary) (h : History) (holds : Holds s) :
    ∃ s', Holds s' ∧ Registry.describeAll registry name summaries h s =
      (summaries.foldlM (c.extend registry name) h, s') := by
  induction summaries generalizing h s with
  | nil => exact ⟨s, holds, rfl⟩
  | cons summary rest ih =>
    obtain ⟨s₁, holds₁, described⟩ := shown.describe registry name (some summary.version) holds
    rw [List.foldlM_cons, extend]
    rw [Registry.describeAll, described]
    cases c.describe registry name (some summary.version) with
    | error e => exact ⟨s₁, holds₁, rfl⟩
    | ok d => exact ih _ holds₁

theorem Shown.drainVersions_page {items : List VersionSummary} (listed : c.versions registry name = .ok items)
    {token : Option String} {page : Page VersionSummary} (sliced : Page.slice items token size = .ok page)
    (h : History) (holds : Holds s) : ∃ s', Holds s' ∧ Registry.drainVersions registry name token h s =
      match page.items.foldlM (c.extend registry name) h with
      | .error e => (.error e, s')
      | .ok h' => match page.next with
        | none => (.ok h', s')
        | some next => Registry.drainVersions registry name (some next) h' s' := by
  obtain ⟨s₁, holds₁, answered⟩ := shown.listVersions registry name token holds
  have found : Directory.listVersions registry name token s = (.ok page, s₁) := by
    rw [answered, listed]
    exact congrArg (·, s₁) sliced
  obtain ⟨s₂, holds₂, described⟩ := shown.describeAll registry name page.items h holds₁
  refine ⟨s₂, holds₂, ?_⟩
  cases read : page.items.foldlM (c.extend registry name) h with
  | error e =>
    rw [read] at described
    exact Registry.drainVersions_unread found described
  | ok h' =>
    rw [read] at described
    exact Registry.drainVersions_page found described

theorem Shown.drainVersions_pages {items : List VersionSummary} (listed : c.versions registry name = .ok items)
    {token : Option String} {pages : List (Page VersionSummary)}
    (drains : Page.Drains size (fun _ => items) token pages) (h : History) (holds : Holds s) :
    ∃ s', Holds s' ∧ Registry.drainVersions registry name token h s =
      ((Page.gathered pages).foldlM (c.extend registry name) h, s') := by
  -- By induction on the pages, which are all cut from the same listing.
  generalize steady : (fun _ => items) = lists at drains
  induction drains generalizing h s with
  | last sliced ends =>
    subst steady
    obtain ⟨s₁, holds₁, read⟩ := shown.drainVersions_page listed sliced h holds
    refine ⟨s₁, holds₁, ?_⟩
    rw [read, ends, Page.gathered_single]
    split <;> rename_i folded <;> rw [folded]
  | @more _ _ page _ _ sliced next _ ih =>
    subst steady
    obtain ⟨s₁, holds₁, read⟩ := shown.drainVersions_page listed sliced h holds
    rw [read, next, Page.gathered_cons, List.foldlM_append]
    cases page.items.foldlM (c.extend registry name) h with
    | error e => exact ⟨s₁, holds₁, rfl⟩
    | ok h' => exact ih h' holds₁ rfl

theorem Shown.drainNames_pages {now : Instant} {start : Option String} {items : List SchemaSummary}
    (listed : c.schemas now registry start = .ok items) {token : Option String} {pages : List (Page SchemaSummary)}
    (drains : Page.Drains size (fun _ => items) token pages) (names : Names) (holds : Holds s) :
    ∃ s', Holds s' ∧ Registry.drainNames now ⟨registry, start, token⟩ names s =
      (.ok (names.addAll ((Page.gathered pages).map (·.name))), s') := by
  -- A page is found whenever the listing is there.
  have found {token : Option String} {page : Page SchemaSummary} {s : σ} (holds : Holds s)
      (sliced : Page.slice items token size = .ok page) :
      ∃ s', Holds s' ∧ Directory.listSchemas now ⟨registry, start, token⟩ s = (.ok page, s') := by
    obtain ⟨s₁, holds₁, answered⟩ := shown.listSchemas now ⟨registry, start, token⟩ holds
    rw [listed] at answered
    exact ⟨s₁, holds₁, answered.trans (congrArg (·, s₁) sliced)⟩
  generalize steady : (fun _ => items) = lists at drains
  induction drains generalizing names s with
  | last sliced ends =>
    subst steady
    obtain ⟨s₁, holds₁, answered⟩ := found holds sliced
    refine ⟨s₁, holds₁, ?_⟩
    rw [Registry.drainNames_page answered, ends, Page.gathered_single]
  | more sliced next _ ih =>
    subst steady
    obtain ⟨s₁, holds₁, answered⟩ := found holds sliced
    rw [Registry.drainNames_page answered, next, Page.gathered_cons, List.map_append, Names.addAll_append]
    exact ih _ holds₁ rfl

variable (bounded : c.Bounded)
include bounded

theorem Shown.drainNames (now : Instant) (start : Option String) (holds : Holds s) :
    ∃ s', Holds s' ∧ Registry.drainNames now ⟨registry, start, none⟩ Table.empty s =
      (c.names now registry start, s') := by
  cases listed : c.schemas now registry start with
  | error e =>
    obtain ⟨s₁, holds₁, answered⟩ := shown.listSchemas now ⟨registry, start, none⟩ holds
    rw [listed] at answered
    exact ⟨s₁, holds₁, by rw [Registry.drainNames_error answered, names, listed]; rfl⟩
  | ok items =>
    obtain ⟨pages, drains, whole, -⟩ := Page.drains_whole (bounded.schemas listed) size
    obtain ⟨s₁, holds₁, drained⟩ := shown.drainNames_pages listed drains Table.empty holds
    rw [whole] at drained
    exact ⟨s₁, holds₁, by rw [drained, names, listed]; rfl⟩

theorem Shown.readHistory (name : String) (holds : Holds s) :
    ∃ s', Holds s' ∧ Registry.readHistory registry name s = (c.history registry name, s') := by
  unfold Registry.readHistory
  cases listed : c.versions registry name with
  | error e =>
    obtain ⟨s₁, holds₁, answered⟩ := shown.listVersions registry name none holds
    rw [listed] at answered
    exact ⟨s₁, holds₁, by rw [Registry.drainVersions_error answered, history, listed]; rfl⟩
  | ok items =>
    obtain ⟨pages, drains, whole, -⟩ := Page.drains_whole (bounded.versions listed) size
    obtain ⟨s₁, holds₁, drained⟩ := shown.drainVersions_pages listed drains (.empty registry name) holds
    rw [whole] at drained
    exact ⟨s₁, holds₁, by rw [drained, history, listed]; rfl⟩

end

end Contents

end Schemata
