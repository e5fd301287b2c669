import Schemata.FileTree
import Schemata.Proofs.Table

/-! What making folders and writing a file change in a tree: the folders on the way to the place and the
place itself. What stands at any other path is as it was. -/
namespace Schemata.FileTree

open Table

@[simp] theorem find?_nil (tree : FileTree) : tree.find? [] = some tree := by
  cases tree <;> rfl

@[simp] theorem find?_file (name : String) (rest : FilePath) (content : FileContent) :
    (file content).find? (name :: rest) = none := rfl

theorem find?_cons (name : String) (rest : FilePath) (entries : Table String FileTree) :
    (folder entries).find? (name :: rest) = (entries.get? name).bind (find? rest) := by
  rw [find?]
  cases entries.get? name <;> rfl

theorem find?_append (path rest : FilePath) (tree : FileTree) :
    tree.find? (path ++ rest) = (tree.find? path).bind (find? rest) := by
  induction path generalizing tree with
  | nil => simp
  | cons name path ih =>
    cases tree with
    | file content => simp
    | folder entries =>
      rw [List.cons_append, find?_cons, find?_cons]
      cases entries.get? name with
      | none => rfl
      | some inner => exact ih inner

theorem folder?_eq_some_iff {path : FilePath} {tree : FileTree} {entries : Table String FileTree} :
    tree.folder? path = some entries ↔ tree.find? path = some (folder entries) := by
  unfold folder?
  split <;> simp_all

theorem find?_emptyFolder {path : FilePath} (proper : path ≠ []) : emptyFolder.find? path = none := by
  cases path with
  | nil => exact absurd rfl proper
  | cons name rest => rfl

theorem folder?_emptyFolder (path : FilePath) : (emptyFolder.folder? path).getD empty = empty := by
  cases path <;> rfl

theorem folder?_congr {path : FilePath} {s t : FileTree} (same : s.find? path = t.find? path) :
    s.folder? path = t.folder? path := by rw [folder?, folder?, same]

section
variable {name : String} {entries : Table String FileTree} (rest : FilePath)

theorem makeFolders_present {inner : FileTree} (present : entries.get? name = some inner) :
    (folder entries).makeFolders (name :: rest) =
      (folder (entries.insert name (inner.makeFolders rest).1), (inner.makeFolders rest).2) := by
  rw [makeFolders, present]

theorem makeFolders_missing (missing : entries.get? name = none) : (folder entries).makeFolders (name :: rest) =
    if isStorable name = true then
      (folder (entries.insert name (emptyFolder.makeFolders rest).1), (emptyFolder.makeFolders rest).2)
    else (folder entries, false) := by
  rw [makeFolders, missing]

end

/-- Of the entries at the top, at most the one on the way is set. -/
theorem makeFolders_top (name : String) (rest : FilePath) (entries : Table String FileTree) :
    ((folder entries).makeFolders (name :: rest)).1 = folder entries ∨
      ∃ inner, ((folder entries).makeFolders (name :: rest)).1 = folder (entries.insert name inner) := by
  cases present : entries.get? name with
  | some inner =>
    rw [makeFolders_present rest present]
    exact .inr ⟨_, rfl⟩
  | none =>
    rw [makeFolders_missing rest present]
    split
    · exact .inr ⟨_, rfl⟩
    · exact .inl rfl

/-- Making folders is seen only on the way to the last of them. -/
theorem find?_makeFolders {path other : FilePath} (aside : ¬ other <+: path) (tree : FileTree) :
    (tree.makeFolders path).1.find? other = tree.find? other := by
  induction path generalizing other tree with
  | nil => cases tree <;> rfl
  | cons name rest ih =>
    cases tree with
    | file content => rfl
    | folder entries =>
      cases other with
      | nil => exact absurd List.nil_prefix aside
      | cons first others =>
        by_cases same : first = name
        · subst same
          have aside' : ¬ others <+: rest := fun inside => aside (List.cons_prefix_cons.mpr ⟨rfl, inside⟩)
          have proper : others ≠ [] := fun none => aside' (none ▸ List.nil_prefix)
          cases present : entries.get? first with
          | some inner =>
            rw [makeFolders_present rest present]
            simp [find?_cons, present, ih aside']
          | none =>
            rw [makeFolders_missing rest present]
            split
            · simp [find?_cons, present, ih aside', find?_emptyFolder proper]
            · rfl
        · rcases makeFolders_top name rest entries with unchanged | ⟨inner, changed⟩
          · rw [unchanged]
          · rw [changed, find?_cons, get?_insert_other same, find?_cons]

/-- The folder is there in the end, with what was in it before; else it was and is missing. -/
theorem folder?_makeFolders (path : FilePath) (tree : FileTree) :
    (tree.makeFolders path).1.folder? path =
      if (tree.makeFolders path).2 then some ((tree.folder? path).getD empty) else none := by
  induction path generalizing tree with
  | nil => cases tree <;> rfl
  | cons name rest ih =>
    cases tree with
    | file content => rfl
    | folder entries =>
      cases present : entries.get? name with
      | some inner =>
        rw [makeFolders_present rest present]
        simpa [folder?, find?_cons, present] using ih inner
      | none =>
        rw [makeFolders_missing rest present]
        split
        · have made := ih emptyFolder
          rw [folder?_emptyFolder] at made
          simpa [folder?, find?_cons, present] using made
        · simp [folder?, find?_cons, present]

theorem folder?_of_makeFolders_fails {path : FilePath} {tree : FileTree}
    (fails : (tree.makeFolders path).2 = false) : tree.folder? path = none := by
  induction path generalizing tree with
  | nil =>
    cases tree with
    | file content => rfl
    | folder entries => cases fails
  | cons name rest ih =>
    cases tree with
    | file content => rfl
    | folder entries =>
      cases present : entries.get? name with
      | some inner =>
        rw [makeFolders_present rest present] at fails
        simpa [folder?, find?_cons, present] using ih fails
      | none => simp [folder?, find?_cons, present]

/-- Setting an entry is seen in its folder and below the entry. -/
theorem sorted_set {inside entries : Table String FileTree} {first : String} {made : FileTree} {other : FilePath}
    (found : (folder (inside.insert first made)).folder? other = some entries)
    (sorted : (((folder inside).folder? other).getD empty).Sorted)
    (below : ∀ others, other = first :: others → made.folder? others = some entries → entries.Sorted) :
    entries.Sorted := by
  cases other with
  | nil =>
    cases found
    exact sorted_insert sorted _ _
  | cons start others =>
    rw [folder?, find?_cons] at found
    by_cases same : start = first
    · subst same
      rw [get?_insert_same, Option.bind_some] at found
      exact below others rfl found
    · rw [get?_insert_other same] at found
      rw [folder?, find?_cons, found] at sorted
      exact sorted

theorem sorted_makeFolders {path other : FilePath} {tree : FileTree} {entries : Table String FileTree}
    (found : (tree.makeFolders path).1.folder? other = some entries)
    (sorted : ((tree.folder? other).getD empty).Sorted) : entries.Sorted := by
  induction path generalizing other tree with
  | nil =>
    have unchanged : (tree.makeFolders []).1 = tree := by cases tree <;> rfl
    rw [unchanged] at found
    rwa [found] at sorted
  | cons name rest ih =>
    cases tree with
    | file content =>
      change (file content).folder? other = some entries at found
      rwa [found] at sorted
    | folder inside =>
      cases present : inside.get? name with
      | some inner =>
        rw [makeFolders_present rest present] at found
        refine sorted_set found sorted fun others same here => ih here ?_
        rw [same, folder?, find?_cons, present] at sorted
        exact sorted
      | none =>
        rw [makeFolders_missing rest present] at found
        split at found
        · refine sorted_set found sorted fun others _ here => @ih others emptyFolder here ?_
          rw [folder?_emptyFolder]
          exact sorted_empty
        · rwa [found] at sorted

theorem folder_on_way {path other : FilePath} {tree : FileTree} {entries : Table String FileTree}
    (there : tree.folder? path = some entries) (inside : other <+: path) :
    ∃ above, tree.find? other = some (folder above) := by
  obtain ⟨rest, rfl⟩ := inside
  have place := folder?_eq_some_iff.mp there
  rw [find?_append, Option.bind_eq_some_iff] at place
  obtain ⟨above, found, below⟩ := place
  cases above with
  | folder above => exact ⟨above, found⟩
  | file content => cases rest <;> cases below

theorem makeFolders_succeeds {path : FilePath} {tree : FileTree}
    (clear : ∀ other, other <+: path → ∀ content, tree.find? other ≠ some (file content))
    (storable : ∀ name ∈ path, isStorable name = true) : (tree.makeFolders path).2 = true := by
  induction path generalizing tree with
  | nil =>
    cases tree with
    | folder entries => rfl
    | file content => exact absurd (find?_nil _) (clear [] List.nil_prefix content)
  | cons name rest ih =>
    cases tree with
    | file content => exact absurd (find?_nil _) (clear [] List.nil_prefix content)
    | folder entries =>
      have storable' : ∀ other ∈ rest, isStorable other = true :=
        fun other inside => storable other (List.mem_cons_of_mem _ inside)
      cases present : entries.get? name with
      | some inner =>
        rw [makeFolders_present rest present]
        refine ih (fun other inside content found => ?_) storable'
        exact clear (name :: other) (List.cons_prefix_cons.mpr ⟨rfl, inside⟩) content
          (by rw [find?_cons, present]; exact found)
      | none =>
        rw [makeFolders_missing rest present, if_pos (storable name List.mem_cons_self)]
        refine ih (fun other inside content found => ?_) storable'
        cases other with
        | nil => cases found
        | cons first others => cases found

section
variable {content : FileContent} {name : String}

theorem writeFile?_nil (tree : FileTree) : writeFile? content [] tree = none := by cases tree <;> rfl

theorem writeFile?_file (path : FilePath) (other : FileContent) : writeFile? content path (file other) = none := by
  rcases path with _ | ⟨_, _ | _⟩ <;> rfl

theorem writeFile?_single_iff {entries : Table String FileTree} {after : FileTree} :
    writeFile? content [name] (folder entries) = some after ↔
      (∀ inner, entries.get? name ≠ some (folder inner)) ∧ isStorable name = true ∧
        after = folder (entries.insert name (file content)) := by
  rw [writeFile?]
  split
  · rename_i inner taken
    exact ⟨nofun, fun free => absurd taken (free.1 inner)⟩
  · rename_i free
    by_cases storable : isStorable name = true
    · rw [if_pos storable, Option.some.injEq, eq_comm]
      exact ⟨fun same => ⟨free, storable, same⟩, fun written => written.2.2⟩
    · rw [if_neg storable]
      exact ⟨nofun, fun written => absurd written.2.1 storable⟩

theorem writeFile?_cons {rest : FilePath} (more : rest ≠ []) (first : String) (entries : Table String FileTree) :
    writeFile? content (first :: rest) (folder entries) = (entries.get? first).bind fun inner =>
      (writeFile? content rest inner).map fun tree => folder (entries.insert first tree) := by
  obtain ⟨next, others, rfl⟩ := List.exists_cons_of_ne_nil more
  rw [writeFile?]
  cases entries.get? first <;> rfl

theorem writeFile?_cons_eq_some {rest : FilePath} (more : rest ≠ []) {first : String}
    {entries : Table String FileTree} {after : FileTree}
    (written : writeFile? content (first :: rest) (folder entries) = some after) :
    ∃ inner inner', entries.get? first = some inner ∧ writeFile? content rest inner = some inner' ∧
      after = folder (entries.insert first inner') := by
  rw [writeFile?_cons more, Option.bind_eq_some_iff] at written
  obtain ⟨inner, present, made⟩ := written
  obtain ⟨inner', written', rfl⟩ := Option.map_eq_some_iff.mp made
  exact ⟨inner, inner', present, written', rfl⟩

theorem folder?_writeFile {path : FilePath} {tree after : FileTree}
    (written : writeFile? content (path ++ [name]) tree = some after) :
    ∃ entries, tree.folder? path = some entries ∧
      after.folder? path = some (entries.insert name (file content)) := by
  induction path generalizing tree after with
  | nil =>
    cases tree with
    | file other => cases written
    | folder entries =>
      obtain ⟨-, -, rfl⟩ := writeFile?_single_iff.mp written
      exact ⟨entries, rfl, rfl⟩
  | cons first rest ih =>
    cases tree with
    | file other =>
      rw [writeFile?_file] at written
      cases written
    | folder entries =>
      obtain ⟨inner, inner', present, written', rfl⟩ := writeFile?_cons_eq_some (by simp) written
      obtain ⟨found, before, now⟩ := ih written'
      exact ⟨found, by simpa [folder?, find?_cons, present] using before,
        by simpa [folder?, find?_cons] using now⟩

theorem writeFile?_succeeds {path : FilePath} {tree : FileTree} {entries : Table String FileTree}
    (there : tree.folder? path = some entries) (free : ∀ inner, entries.get? name ≠ some (folder inner))
    (storable : isStorable name = true) : ∃ after, writeFile? content (path ++ [name]) tree = some after := by
  induction path generalizing tree with
  | nil =>
    rw [folder?_eq_some_iff, find?_nil, Option.some.injEq] at there
    subst there
    exact ⟨_, writeFile?_single_iff.mpr ⟨free, storable, rfl⟩⟩
  | cons first rest ih =>
    cases tree with
    | file other => cases there
    | folder above =>
      rw [folder?_eq_some_iff, find?_cons, Option.bind_eq_some_iff] at there
      obtain ⟨inner, present, below⟩ := there
      obtain ⟨after, written⟩ := ih (folder?_eq_some_iff.mpr below)
      refine ⟨folder (above.insert first after), ?_⟩
      rw [List.cons_append, writeFile?_cons (by simp), present, Option.bind_some, written, Option.map_some]

/-- Writing a file is seen only on the way to it. -/
theorem find?_writeFile {path other : FilePath} (aside : ¬ other <+: path) {tree after : FileTree}
    (written : writeFile? content path tree = some after) : after.find? other = tree.find? other := by
  induction path generalizing other tree after with
  | nil =>
    rw [writeFile?_nil] at written
    cases written
  | cons first rest ih =>
    cases tree with
    | file inside =>
      rw [writeFile?_file] at written
      cases written
    | folder entries =>
      cases other with
      | nil => exact absurd List.nil_prefix aside
      | cons start others =>
        have aside' : start = first → ¬ others <+: rest :=
          fun same inside => aside (List.cons_prefix_cons.mpr ⟨same, inside⟩)
        by_cases last : rest = []
        · subst last
          obtain ⟨free, -, rfl⟩ := writeFile?_single_iff.mp written
          by_cases same : start = first
          · subst same
            have proper : others ≠ [] := fun none => aside' rfl (none ▸ List.nil_prefix)
            obtain ⟨next, more, rfl⟩ := List.exists_cons_of_ne_nil proper
            rw [find?_cons, find?_cons, get?_insert_same, Option.bind_some, find?_file]
            cases present : entries.get? start with
            | none => rfl
            | some inner =>
              cases inner with
              | file inside => rfl
              | folder inside => exact absurd present (free inside)
          · rw [find?_cons, find?_cons, get?_insert_other same]
        · obtain ⟨inner, inner', present, written', rfl⟩ := writeFile?_cons_eq_some last written
          by_cases same : start = first
          · subst same
            rw [find?_cons, find?_cons, get?_insert_same, present, Option.bind_some, Option.bind_some,
              ih (aside' rfl) written']
          · rw [find?_cons, find?_cons, get?_insert_other same]

/-- After a file was written into folders made for it there is what was there before, the folders on the way
and the file. -/
theorem find?_put_cases {path : FilePath} {tree after : FileTree}
    (written : writeFile? content (path ++ [name]) (tree.makeFolders path).1 = some after) (other : FilePath) :
    after.find? other = tree.find? other ∨
      other <+: path ∧ (∃ above, after.find? other = some (folder above)) ∨
      other = path ++ [name] ∧ after.find? other = some (file content) := by
  obtain ⟨entries, -, there⟩ := folder?_writeFile written
  by_cases inside : other <+: path ++ [name]
  · rcases List.prefix_concat_iff.mp inside with rfl | above
    · refine .inr (.inr ⟨rfl, ?_⟩)
      rw [find?_append, folder?_eq_some_iff.mp there, Option.bind_some, find?_cons, get?_insert_same,
        Option.bind_some, find?_nil]
    · exact .inr (.inl ⟨above, folder_on_way there above⟩)
  · have aside : ¬ other <+: path := fun above => inside (above.trans (List.prefix_append _ _))
    rw [find?_writeFile inside written, find?_makeFolders aside]
    exact .inl rfl

theorem sorted_writeFile {path other : FilePath} {tree after : FileTree}
    {entries : Table String FileTree} (written : writeFile? content path tree = some after)
    (found : after.folder? other = some entries) (sorted : ((tree.folder? other).getD empty).Sorted) :
    entries.Sorted := by
  induction path generalizing other tree after with
  | nil =>
    rw [writeFile?_nil] at written
    cases written
  | cons first rest ih =>
    cases tree with
    | file inside =>
      rw [writeFile?_file] at written
      cases written
    | folder inside =>
      by_cases last : rest = []
      · subst last
        obtain ⟨-, -, rfl⟩ := writeFile?_single_iff.mp written
        refine sorted_set found sorted fun others _ here => ?_
        cases others <;> cases here
      · obtain ⟨inner, inner', present, written', rfl⟩ := writeFile?_cons_eq_some last written
        refine sorted_set found sorted fun others same here => ih written' here ?_
        rw [same, folder?, find?_cons, present] at sorted
        exact sorted

end

/-- Whether a folder stands at a path, or nothing does and a folder can have the last name. -/
def admits (path : FilePath) (tree : FileTree) : Bool :=
  match tree.find? path with
  | some (folder _) => true
  | some (file _) => false
  | none => path.getLast?.all isStorable

theorem admits_congr {path : FilePath} {s t : FileTree} (same : s.find? path = t.find? path) :
    s.admits path = t.admits path := by rw [admits, admits, same]

theorem admits_of_folder {path : FilePath} {tree : FileTree} {entries : Table String FileTree}
    (there : tree.find? path = some (folder entries)) : tree.admits path = true := by rw [admits, there]

theorem admits_cons {name : String} {rest : FilePath} {entries : Table String FileTree} {inner : FileTree}
    (present : entries.get? name = some inner) : (folder entries).admits (name :: rest) = inner.admits rest := by
  rw [admits, find?_cons, present, Option.bind_some, admits]
  cases rest with
  | nil =>
    rw [find?_nil]
    cases inner <;> rfl
  | cons next more => rw [List.getLast?_cons_cons]

theorem admits_missing {name : String} {rest : FilePath} {entries : Table String FileTree}
    (missing : entries.get? name = none) :
    (folder entries).admits (name :: rest) = (if rest = [] then isStorable name else emptyFolder.admits rest) := by
  rw [admits, find?_cons, missing, Option.bind_none]
  cases rest with
  | nil => rfl
  | cons next more =>
    rw [if_neg (List.cons_ne_nil _ _), admits, find?_emptyFolder (List.cons_ne_nil _ _), List.getLast?_cons_cons]

theorem makeFolders_iff (path : FilePath) (tree : FileTree) :
    (tree.makeFolders path).2 = true ↔ ∀ other, other <+: path → tree.admits other = true := by
  induction path generalizing tree with
  | nil =>
    simp only [List.prefix_nil, forall_eq]
    cases tree with
    | file content => exact ⟨nofun, nofun⟩
    | folder entries => exact ⟨fun _ => rfl, fun _ => rfl⟩
  | cons name rest ih =>
    cases tree with
    | file content =>
      constructor
      · intro made
        cases made
      · intro all
        have here := all [] List.nil_prefix
        rw [admits, find?_nil] at here
        cases here
    | folder entries =>
      have top : (folder entries).admits [] = true := by rw [admits, find?_nil]
      have split : (∀ other, other <+: name :: rest → (folder entries).admits other = true) ↔
          ∀ other, other <+: rest → (folder entries).admits (name :: other) = true := by
        constructor
        · intro all other inside
          exact all _ (List.cons_prefix_cons.mpr ⟨rfl, inside⟩)
        · intro all other inside
          cases other with
          | nil => exact top
          | cons first others =>
            obtain ⟨rfl, below⟩ := List.cons_prefix_cons.mp inside
            exact all others below
      rw [split]
      cases present : entries.get? name with
      | some inner =>
        rw [makeFolders_present rest present]
        simp only [ih, admits_cons present]
      | none =>
        simp only [makeFolders_missing rest present, admits_missing present]
        by_cases storable : isStorable name = true
        · simp only [storable, if_true, ih]
          refine forall₂_congr fun other inside => ?_
          cases other with
          | nil => simp [admits, emptyFolder]
          | cons next more => simp
        · simp only [storable]
          constructor
          · intro made
            cases made
          · intro all
            exact absurd (all [] List.nil_prefix) (by simp)

theorem admits_makeFolders {path other : FilePath} (tree : FileTree) :
    (tree.makeFolders path).1.admits other = tree.admits other := by
  by_cases inside : other <+: path
  · induction path generalizing other tree with
    | nil => cases tree <;> rfl
    | cons name rest ih =>
      cases tree with
      | file content => rfl
      | folder entries =>
        cases other with
        | nil =>
          rcases makeFolders_top name rest entries with unchanged | ⟨inner, changed⟩
          · rw [unchanged]
          · rw [changed, admits, admits, find?_nil, find?_nil]
        | cons first others =>
          obtain ⟨rfl, below⟩ := List.cons_prefix_cons.mp inside
          cases present : entries.get? first with
          | some inner =>
            rw [makeFolders_present rest present, admits_cons (get?_insert_same _ _ _), admits_cons present]
            exact ih inner below
          | none =>
            rw [makeFolders_missing rest present]
            by_cases storable : isStorable first = true
            · rw [if_pos storable, admits_cons (get?_insert_same _ _ _), ih emptyFolder below, admits_missing present,
                storable]
              split
              · rename_i none
                rw [none]
                rfl
              · rfl
            · rw [if_neg storable]
  · exact admits_congr (find?_makeFolders inside tree)

/-- A folder that cannot be made leaves at its place what is there. -/
theorem find?_of_makeFolders_fails {path : FilePath} {tree : FileTree} (fails : (tree.makeFolders path).2 = false) :
    (tree.makeFolders path).1.find? path = tree.find? path := by
  induction path generalizing tree with
  | nil => cases tree <;> rfl
  | cons name rest ih =>
    cases tree with
    | file content => rfl
    | folder entries =>
      cases present : entries.get? name with
      | some inner =>
        rw [makeFolders_present rest present] at fails ⊢
        rw [find?_cons, get?_insert_same, Option.bind_some, ih fails, find?_cons, present, Option.bind_some]
      | none =>
        rw [makeFolders_missing rest present] at fails ⊢
        by_cases storable : isStorable name = true
        · rw [if_pos storable] at fails ⊢
          have proper : rest ≠ [] := by
            rintro rfl
            cases fails
          rw [find?_cons, get?_insert_same, Option.bind_some, ih fails, find?_cons, present, find?_emptyFolder proper,
            Option.bind_none]
        · rw [if_neg storable]

/-- What stands at the place of a folder after it was to be made is settled by what stood there and by whether it
could be made. -/
theorem find?_makeFolders_self (path : FilePath) (tree : FileTree) :
    (tree.makeFolders path).1.find? path =
      if (tree.makeFolders path).2 then some (folder ((tree.folder? path).getD empty)) else tree.find? path := by
  have made := folder?_makeFolders path tree
  split
  · rename_i done
    rw [if_pos done] at made
    exact folder?_eq_some_iff.mp made
  · rename_i fails
    exact find?_of_makeFolders_fails (by simpa using fails)

theorem isSome_writeFile? (content : FileContent) (path : FilePath) (name : String) (tree : FileTree) :
    (writeFile? content (path ++ [name]) tree).isSome =
      ((tree.folder? path).bind fun entries => writeFile? content [name] (folder entries)).isSome := by
  induction path generalizing tree with
  | nil => cases tree <;> rfl
  | cons first rest ih =>
    cases tree with
    | file other =>
      rw [writeFile?_file]
      rfl
    | folder entries =>
      rw [List.cons_append, writeFile?_cons (by simp), folder?, find?_cons]
      cases entries.get? first with
      | none => rfl
      | some inner =>
        rw [Option.bind_some, Option.isSome_map, ih]
        rfl

end Schemata.FileTree
